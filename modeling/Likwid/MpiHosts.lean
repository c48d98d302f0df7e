import Likwid.Lib.Merging
import Likwid.Lib.Shares
import Mathlib.Algebra.Order.BigOperators.Group.List
import Mathlib.Algebra.Order.Group.Nat

/-!
# The hosts of `likwid-mpirun`

`assignHosts` goes through the host list, gives each host up to `ppn` processes and merges the
entries of one host afterwards. It goes home as soon as one process is left, a host without
`max-slots` gets `ppn` processes whatever its slots are, and the merge does not look at the entry
behind one that it has deleted. `assignHosts_iff` says for which lists, `np` and `ppn` all is well
nevertheless.
-/

namespace Likwid

open Merging Shares

/-! ## The function -/

/-- An entry of a host list -/
structure MpiHost where
  hostname : List Char
  slots : Option ℕ
  maxslots : Option ℕ := none
  interface : Option (List Char) := none
deriving DecidableEq, Repr

/-- An entry of `newhosts` -/
structure NewHost where
  hostname : List Char
  slots : ℕ
  maxslots : Option ℕ
  interface : Option (List Char)
deriving DecidableEq, Repr

/-- The entry for `newhosts`, and what stays in `hosts[i]` -/
def assignHost (host : MpiHost) (ppn : ℕ) : NewHost × Option MpiHost :=
  let entry slots maxslots : NewHost :=
    { hostname := host.hostname, slots, maxslots, interface := host.interface }
  match host.slots, host.maxslots with
  | some slots, some maxslots =>
      if ppn ≤ slots then
        if maxslots < ppn then (entry maxslots (some maxslots), none)
        else (entry ppn (some slots), none)
      else if maxslots < ppn then (entry maxslots (some maxslots), none)
      else (entry ppn (some maxslots), some host)
  | some slots, none =>
      if ppn ≤ slots then (entry ppn (some slots), none) else (entry ppn (some slots), some host)
  | none, _ => (entry ppn none, some host)

/-- What the loop over the hosts leaves -/
structure HostRound where
  hosts : List (Option MpiHost)
  tmp : ℤ
  ppn : ℕ
  newhosts : List NewHost
  breakWhile : Bool

/-- `for i, host in pairs(hosts)`; an entry that has been deleted is `none`. -/
def assignRound : List (Option MpiHost) → ℤ → ℕ → HostRound
  | [], tmp, ppn => ⟨[], tmp, ppn, [], false⟩
  | none :: hosts, tmp, ppn =>
      let r := assignRound hosts tmp ppn
      { r with hosts := none :: r.hosts }
  | some host :: hosts, tmp, ppn =>
      let (new, left) := assignHost host ppn
      let tmp := tmp - new.slots
      if tmp ≤ 1 then ⟨left :: hosts, tmp, ppn, [new], true⟩
      else
        let r := assignRound hosts tmp (if tmp < ppn then tmp.toNat else ppn)
        { r with hosts := left :: r.hosts, newhosts := new :: r.newhosts }

section Assign

variable (border : List (Option MpiHost) → ℕ)

/-- `while tmp > 0 and #hosts > 0`, with `border` for the length operator, which a table with holes
leaves open. There is no value where the rounds are not enough. -/
def assignWhile : ℕ → List (Option MpiHost) → ℤ → ℕ → Option (List NewHost × ℕ)
  | 0, _, _, _ => none
  | rounds + 1, hosts, tmp, ppn =>
      if 0 < tmp ∧ 0 < border hosts then
        let r := assignRound hosts tmp ppn
        if r.breakWhile then some (r.newhosts, r.ppn)
        else
          (assignWhile rounds r.hosts r.tmp r.ppn).map fun (newhosts, ppn) =>
            (r.newhosts ++ newhosts, ppn)
      else some ([], ppn)

/-- `newhosts[i]` takes `newhosts[j]` in; `ppn` grows with it. -/
def mergeHost (ppn : ℕ) (x y : NewHost) : ℕ × NewHost :=
  let slots := x.slots + y.slots
  let maxslots := match x.maxslots, y.maxslots with
    | some a, some b => some (a + b)
    | m, _ => m
  (if ppn < slots then slots else ppn, { x with slots, maxslots })

def assignHosts (rounds : ℕ) (hosts : List MpiHost) (np ppn : ℕ) : Option (List NewHost × ℕ) :=
  (assignWhile border rounds (hosts.map some) np ppn).map fun (newhosts, ppn) =>
    let (ppn, newhosts) := mergeAll NewHost.hostname mergeHost newhosts.length ppn newhosts
    (newhosts, ppn)

end Assign

/-! ## What it should do -/

/-- The processes a host may get: its maximal slots, or else its slots, and at most `ppn` -/
def MpiHost.capacity (ppn : ℕ) (host : MpiHost) : ℕ :=
  min (host.maxslots.getD (host.slots.getD 0)) ppn

/-- The capacity of all entries of a host -/
def capacityOf (hosts : List MpiHost) (ppn : ℕ) (name : List Char) : ℕ :=
  weightOf MpiHost.hostname (MpiHost.capacity ppn) (· = name) hosts

structure WellAssigned (hosts : List MpiHost) (np ppn : ℕ) (newhosts : List NewHost) : Prop where
  total : (newhosts.map NewHost.slots).sum = np
  once : (newhosts.map NewHost.hostname).Nodup
  bounded : ∀ host ∈ newhosts, host.slots ≤ capacityOf hosts ppn host.hostname

/-! ## When it does so -/

/-- What a host takes while there is enough: its slots do not matter. -/
def MpiHost.offer (ppn : ℕ) (host : MpiHost) : ℕ :=
  match host.maxslots with
  | some maxslots => min maxslots ppn
  | none => ppn

def offers (hosts : List MpiHost) (ppn : ℕ) : List ℕ := hosts.map (MpiHost.offer ppn)

/-- What all entries of a host get if each takes what it offers to, or what is left -/
def shareOf (hosts : List MpiHost) (np ppn : ℕ) (name : List Char) : ℕ :=
  weightOf Prod.fst Prod.snd (· = name)
    ((hosts.map MpiHost.hostname).zip (share np (offers hosts ppn)))

structure Distributes (hosts : List MpiHost) (np ppn : ℕ) : Prop where
  /-- The first host takes no more than there is. -/
  first : 0 < np → ∀ host ∈ hosts.head?, host.offer ppn ≤ np
  /-- No beginning of the list leaves one process. -/
  noneLost : 0 < np → NoneLost np (offers hosts ppn)
  /-- No host offers to take more than it may. -/
  bounded : ∀ name, shareOf hosts np ppn name ≤ capacityOf hosts ppn name
  /-- No two entries are merged one directly behind the other. -/
  spread : Spread ((hosts.take (visits np (offers hosts ppn))).map MpiHost.hostname)

/-! ## One round -/

section Round

variable {host : MpiHost} {hosts : List MpiHost} {np ppn n : ℕ} {name : List Char}

/-- The name and the processes of an entry -/
def NewHost.pair (host : NewHost) : List Char × ℕ := (host.hostname, host.slots)

theorem assignHost_pair (hslots : host.slots ≠ none) (ppn : ℕ) :
    (assignHost host ppn).1.pair = (host.hostname, host.offer ppn) := by
  obtain ⟨slots, hs⟩ := Option.ne_none_iff_exists'.mp hslots
  unfold assignHost MpiHost.offer
  rw [hs]
  cases host.maxslots with
  | none =>
      dsimp only
      split <;> rfl
  | some maxslots =>
      dsimp only
      split
      · split
        · next hlt => rw [Nat.min_eq_left (Nat.le_of_lt hlt)]; rfl
        · next hge => rw [Nat.min_eq_right (Nat.not_lt.mp hge)]; rfl
      · split
        · next hlt => rw [Nat.min_eq_left (Nat.le_of_lt hlt)]; rfl
        · next hge => rw [Nat.min_eq_right (Nat.not_lt.mp hge)]; rfl

theorem offer_min (host : MpiHost) (ppn n : ℕ) :
    host.offer (min ppn n) = min (host.offer ppn) n := by
  unfold MpiHost.offer
  cases host.maxslots with
  | none => rfl
  | some maxslots => exact (Nat.min_assoc _ _ _).symm

theorem capacity_le_offer (host : MpiHost) (ppn : ℕ) : host.capacity ppn ≤ host.offer ppn := by
  unfold MpiHost.capacity MpiHost.offer
  cases host.maxslots with
  | none => exact Nat.min_le_right _ _
  | some maxslots => exact Nat.le_refl _

theorem capacities_le_offers (hosts : List MpiHost) (ppn : ℕ) :
    (hosts.map (MpiHost.capacity ppn)).sum ≤ (offers hosts ppn).sum :=
  List.sum_le_sum fun host _ => capacity_le_offer host ppn

/-- The first host of a round, and the others with what it leaves -/
theorem assignRound_cons (host : MpiHost) (hosts : List (Option MpiHost)) (tmp : ℤ) (ppn c : ℕ)
    (hc : (assignHost host ppn).1.slots = c) :
    (tmp - c ≤ 1 ∧ (assignRound (some host :: hosts) tmp ppn).breakWhile = true ∧
      (assignRound (some host :: hosts) tmp ppn).newhosts = [(assignHost host ppn).1]) ∨
    ∃ n : ℕ, 1 < n ∧ tmp - c = n ∧
      (assignRound (some host :: hosts) tmp ppn).breakWhile =
        (assignRound hosts n (min ppn n)).breakWhile ∧
      (assignRound (some host :: hosts) tmp ppn).newhosts =
        (assignHost host ppn).1 :: (assignRound hosts n (min ppn n)).newhosts := by
  subst hc
  by_cases hstop : tmp - (assignHost host ppn).1.slots ≤ 1
  · refine Or.inl ⟨hstop, ?_, ?_⟩
    · rw [assignRound]
      dsimp only
      rw [if_pos hstop]
    · rw [assignRound]
      dsimp only
      rw [if_pos hstop]
  · obtain ⟨n, hn⟩ := Int.eq_ofNat_of_zero_le (by omega : 0 ≤ tmp - (assignHost host ppn).1.slots)
    have hmin : (if (n : ℤ) < ppn then (n : ℤ).toNat else ppn) = min ppn n := by
      split
      · next hlt => rw [Int.toNat_natCast, Nat.min_eq_right (by omega)]
      · next hge => rw [Nat.min_eq_left (by omega)]
    refine Or.inr ⟨n, by omega, hn, ?_, ?_⟩
    · rw [assignRound]
      dsimp only
      rw [if_neg hstop, hn, hmin]
    · rw [assignRound]
      dsimp only
      rw [if_neg hstop, hn, hmin]

theorem assignRound_pairs (hslots : ∀ host ∈ hosts, host.slots ≠ none) :
    (assignRound (hosts.map some) n (min ppn n)).newhosts.map NewHost.pair =
      (hosts.map MpiHost.hostname).zip (handOut n (offers hosts ppn)) := by
  induction hosts generalizing n with
  | nil => rfl
  | cons host hosts ih =>
      obtain ⟨hhost, hrest⟩ := List.forall_mem_cons.mp hslots
      have hpair := assignHost_pair hhost (min ppn n)
      rw [offer_min] at hpair
      have hnew : (assignHost host (min ppn n)).1.slots = min (host.offer ppn) n :=
        congrArg Prod.snd hpair
      show _ = (host.hostname :: _).zip (handOut n (host.offer ppn :: offers hosts ppn))
      rw [handOut, List.zip_cons_cons, ← hpair]
      rcases assignRound_cons host (hosts.map some) n (min ppn n) _ hnew with
        ⟨hstop, -, hlist⟩ | ⟨m, hm, hsub, -, hlist⟩
      · rw [if_pos (by omega), List.map_cons, hlist, List.zip_nil_right]
        rfl
      · have hleft : n - host.offer ppn = m := by omega
        rw [if_neg (by omega), List.map_cons, hlist, List.map_cons, hleft, ← ih hrest,
          Nat.min_assoc, Nat.min_eq_right (by omega : m ≤ n)]

theorem assignRound_breaks (hslots : ∀ host ∈ hosts, host.slots ≠ none) (hn : 0 < n)
    (hsum : n ≤ (offers hosts ppn).sum) :
    (assignRound (hosts.map some) n (min ppn n)).breakWhile = true := by
  induction hosts generalizing n with
  | nil =>
      rw [offers, List.map_nil, List.sum_nil] at hsum
      omega
  | cons host hosts ih =>
      obtain ⟨hhost, hrest⟩ := List.forall_mem_cons.mp hslots
      have hnew : (assignHost host (min ppn n)).1.slots = min (host.offer ppn) n := by
        rw [← offer_min]
        exact congrArg Prod.snd (assignHost_pair hhost _)
      rw [offers, List.map_cons, List.sum_cons] at hsum
      rw [List.map_cons]
      rcases assignRound_cons host (hosts.map some) n (min ppn n) _ hnew with
        ⟨-, hbreak, -⟩ | ⟨m, hm, hsub, hbreak, -⟩
      · exact hbreak
      · rw [hbreak, Nat.min_assoc, Nat.min_eq_right (by omega : m ≤ n)]
        exact ih hrest (by omega) (by rw [offers]; omega)

/-- **The first round gives everything away**, or all but one process. -/
theorem firstRound (hslots : ∀ host ∈ hosts, host.slots ≠ none) (hn : 0 < np)
    (hsum : np ≤ (offers hosts ppn).sum) :
    (assignRound (hosts.map some) np ppn).breakWhile = true ∧
      ∃ host, hosts.head? = some host ∧
        (host.offer ppn ≤ np → (assignRound (hosts.map some) np ppn).newhosts.map NewHost.pair =
          (hosts.map MpiHost.hostname).zip (handOut np (offers hosts ppn))) ∧
        (np < host.offer ppn → (assignRound (hosts.map some) np ppn).newhosts.map NewHost.pair =
          [(host.hostname, host.offer ppn)]) := by
  cases hosts with
  | nil =>
      rw [offers, List.map_nil, List.sum_nil] at hsum
      omega
  | cons host hosts =>
      obtain ⟨hhost, hrest⟩ := List.forall_mem_cons.mp hslots
      have hpair := assignHost_pair hhost ppn
      have hnew : (assignHost host ppn).1.slots = host.offer ppn := congrArg Prod.snd hpair
      rw [offers, List.map_cons, List.sum_cons] at hsum
      rw [List.map_cons]
      rcases assignRound_cons host (hosts.map some) np ppn _ hnew with
        ⟨hstop, hbreak, hlist⟩ | ⟨m, hm, hsub, hbreak, hlist⟩
      · refine ⟨hbreak, host, rfl, fun hle => ?_, fun _ => ?_⟩
        · show _ = (host.hostname :: _).zip (handOut np (host.offer ppn :: offers hosts ppn))
          rw [handOut, List.zip_cons_cons, Nat.min_eq_left hle, if_pos (by omega), hlist,
            List.zip_nil_right, ← hpair]
          rfl
        · rw [hlist, ← hpair]
          rfl
      · have hleft : np - host.offer ppn = m := by omega
        refine ⟨?_, host, rfl, fun hle => ?_, fun hgt => by omega⟩
        · rw [hbreak]
          exact assignRound_breaks hrest (by omega) (by rw [offers]; omega)
        · show _ = (host.hostname :: _).zip (handOut np (host.offer ppn :: offers hosts ppn))
          rw [handOut, List.zip_cons_cons, Nat.min_eq_left hle, if_neg (by omega), hlist,
            List.map_cons, hleft, assignRound_pairs hrest, ← hpair]

end Round

/-! ## The whole function -/

section Whole

variable {border : List (Option MpiHost) → ℕ} {hosts : List MpiHost} {new : List NewHost}
  {np ppn n : ℕ} {names : List (List Char)} {cs : List ℕ}

theorem weightOf_handOut (p : List Char → Bool) (hn : 0 < n) (h : NoneLost n cs) :
    weightOf Prod.fst Prod.snd p (names.zip (handOut n cs)) =
      weightOf Prod.fst Prod.snd p (names.zip (share n cs)) := by
  induction cs generalizing n names with
  | nil => rfl
  | cons c cs ih =>
      cases names with
      | nil => rfl
      | cons name names =>
          have hfirst := h.first
          rw [handOut, share, List.zip_cons_cons, List.zip_cons_cons, weightOf_cons, weightOf_cons]
          by_cases hstop : n - c ≤ 1
          · have hnone : n - c = 0 := by omega
            have hzero : weightOf Prod.fst Prod.snd p (names.zip (share 0 cs)) = 0 :=
              weightOf_zero fun y hy => share_zero cs y.2 (List.of_mem_zip hy).2
            rw [if_pos hstop, List.zip_nil_right, weightOf_nil, hnone, hzero]
          · rw [if_neg hstop, ih (by omega) (h.tail (by omega))]

theorem map_fst_handOut (hn : 0 < n) (h : NoneLost n cs) (hlen : names.length = cs.length) :
    (names.zip (handOut n cs)).map Prod.fst = names.take (visits n cs) := by
  induction cs generalizing n names with
  | nil =>
      obtain rfl := List.length_eq_zero_iff.mp hlen
      simp [handOut]
  | cons c cs ih =>
      cases names with
      | nil => cases hlen
      | cons name names =>
          obtain ⟨n, rfl⟩ := Nat.exists_eq_succ_of_ne_zero (Nat.ne_of_gt hn)
          have hfirst := h.first
          rw [handOut, visits, List.zip_cons_cons, List.map_cons, List.take_succ_cons]
          by_cases hstop : n + 1 - c ≤ 1
          · have hnone : n + 1 - c = 0 := by omega
            rw [if_pos hstop, List.zip_nil_right, hnone, visits, List.take_zero]
            rfl
          · rw [if_neg hstop, ih (by omega) (h.tail (by omega)) (Nat.succ.inj hlen)]

/-- **The merged list by the entries before**: what each host gets is kept, and each host is listed
once just if its entries are spread. -/
theorem wellAssigned_merged (ppn' : ℕ) :
    WellAssigned hosts np ppn
        (mergeAll NewHost.hostname mergeHost new.length ppn' new).2 ↔
      (new.map NewHost.slots).sum = np ∧ Spread (new.map NewHost.hostname) ∧
        ∀ name, weightOf NewHost.hostname NewHost.slots (· = name) new ≤
          capacityOf hosts ppn name := by
  have hkey : ∀ (s : ℕ) (x y : NewHost), (mergeHost s x y).2.hostname = x.hostname :=
    fun _ _ _ => rfl
  have hweight : ∀ (s : ℕ) (x y : NewHost), (mergeHost s x y).2.slots = x.slots + y.slots :=
    fun _ _ _ => rfl
  have hsame : ∀ p, weightOf NewHost.hostname NewHost.slots p
      (mergeAll NewHost.hostname mergeHost new.length ppn' new).2 =
        weightOf NewHost.hostname NewHost.slots p new :=
    fun p => weightOf_mergeAll hkey hweight
  have hsum := hsame fun _ => true
  rw [weightOf_true, weightOf_true] at hsum
  have hnodup : ((mergeAll NewHost.hostname mergeHost new.length ppn' new).2.map
      NewHost.hostname).Nodup ↔ Spread (new.map NewHost.hostname) :=
    nodup_mergeAll hkey (Nat.le_refl _)
  constructor
  · rintro ⟨htotal, honce, hbounded⟩
    refine ⟨hsum ▸ htotal, hnodup.mp honce, fun name => ?_⟩
    by_cases hin : name ∈ (mergeAll NewHost.hostname mergeHost new.length ppn' new).2.map
        NewHost.hostname
    · obtain ⟨host, hhost, rfl⟩ := List.mem_map.mp hin
      rw [← hsame, weightOf_of_nodup honce hhost]
      exact hbounded host hhost
    · rw [← hsame, weightOf_absent hin]
      exact Nat.zero_le _
  · rintro ⟨htotal, hspread, hbounded⟩
    have honce := hnodup.mpr hspread
    refine ⟨hsum.trans htotal, honce, fun host hhost => ?_⟩
    have hle := hbounded host.hostname
    rwa [← hsame, weightOf_of_nodup honce hhost] at hle

theorem assignHosts_eq (rounds : ℕ) (hborder : ∀ l : List MpiHost, border (l.map some) = l.length)
    (hslots : ∀ host ∈ hosts, host.slots ≠ none) (hn : 0 < np)
    (hsum : np ≤ (offers hosts ppn).sum) :
    let r := assignRound (hosts.map some) np ppn
    assignHosts border (rounds + 1) hosts np ppn =
      some ((mergeAll NewHost.hostname mergeHost r.newhosts.length r.ppn r.newhosts).2,
        (mergeAll NewHost.hostname mergeHost r.newhosts.length r.ppn r.newhosts).1) := by
  have hne : 0 < hosts.length := by
    cases hosts with
    | nil =>
        rw [offers, List.map_nil, List.sum_nil] at hsum
        omega
    | cons host hosts => exact Nat.succ_pos _
  have hbreak := (firstRound hslots hn hsum).1
  unfold assignHosts
  rw [assignWhile, if_pos ⟨by omega, by rw [hborder]; exact hne⟩]
  dsimp only
  rw [if_pos hbreak]
  rfl

/-- **When `assignHosts` gives every process a place.** -/
theorem assignHosts_iff (hborder : ∀ l : List MpiHost, border (l.map some) = l.length)
    (hslots : ∀ host ∈ hosts, host.slots ≠ none)
    (hcapacity : np ≤ (hosts.map (MpiHost.capacity ppn)).sum) :
    ∃ newhosts ppn', (∀ rounds, assignHosts border (rounds + 1) hosts np ppn =
        some (newhosts, ppn')) ∧
      (WellAssigned hosts np ppn newhosts ↔ Distributes hosts np ppn) := by
  have hoffers : np ≤ (offers hosts ppn).sum :=
    hcapacity.trans (capacities_le_offers hosts ppn)
  rcases Nat.eq_zero_or_pos np with rfl | hn
  · refine ⟨[], ppn, fun rounds => by simp [assignHosts, assignWhile, mergeAll], ?_⟩
    have hshare : ∀ name, shareOf hosts 0 ppn name = 0 := fun name =>
      weightOf_zero fun y hy => share_zero _ y.2 (List.of_mem_zip hy).2
    refine iff_of_true ⟨rfl, List.nodup_nil, by simp⟩ ⟨?_, ?_, fun name => ?_, ?_⟩
    · exact fun h => absurd h (Nat.lt_irrefl 0)
    · exact fun h => absurd h (Nat.lt_irrefl 0)
    · rw [hshare]
      exact Nat.zero_le _
    · simp [visits, Spread]
  obtain ⟨-, first, hfirst, hfits, hover⟩ := firstRound hslots hn hoffers
  refine ⟨_, _, fun rounds => assignHosts_eq rounds hborder hslots hn hoffers, ?_⟩
  rw [wellAssigned_merged]
  have hslotsOf : ∀ l : List NewHost, l.map NewHost.slots = (l.map NewHost.pair).map Prod.snd :=
    fun l => by rw [List.map_map]; rfl
  have hnamesOf : ∀ l : List NewHost, l.map NewHost.hostname = (l.map NewHost.pair).map Prod.fst :=
    fun l => by rw [List.map_map]; rfl
  have hweightOf : ∀ (p : List Char → Bool) (l : List NewHost),
      weightOf NewHost.hostname NewHost.slots p l =
        weightOf Prod.fst Prod.snd p (l.map NewHost.pair) := fun p l => weightOf_map.symm
  simp only [hslotsOf, hnamesOf, hweightOf]
  rcases Nat.lt_or_ge np (first.offer ppn) with hlt | hle
  · -- more than there is goes to the first host
    rw [hover hlt]
    refine iff_of_false (fun h => ?_) fun h => ?_
    · have htotal : first.offer ppn = np := by simpa using h.1
      omega
    · exact absurd (h.first hn first hfirst) (Nat.not_le.mpr hlt)
  · rw [hfits hle]
    have hlen : (hosts.map MpiHost.hostname).length = (offers hosts ppn).length := by
      rw [offers, List.length_map, List.length_map]
    have htotal : (((hosts.map MpiHost.hostname).zip (handOut np (offers hosts ppn))).map
        Prod.snd).sum = np ↔ NoneLost np (offers hosts ppn) := by
      rw [List.map_snd_zip (by rw [hlen]; exact length_handOut), sum_handOut_iff hn hoffers]
    constructor
    · rintro ⟨hsum, hspread, hbounded⟩
      have hnone := htotal.mp hsum
      refine ⟨fun _ host hhost => ?_, fun _ => hnone, fun name => ?_, ?_⟩
      · obtain rfl : first = host := Option.some.inj (hfirst.symm.trans hhost)
        exact hle
      · rw [shareOf, ← weightOf_handOut _ hn hnone]
        exact hbounded name
      · rw [List.map_take, ← map_fst_handOut hn hnone hlen]
        exact hspread
    · intro h
      have hnone := h.noneLost hn
      refine ⟨htotal.mpr hnone, ?_, fun name => ?_⟩
      · rw [map_fst_handOut hn hnone hlen, ← List.map_take]
        exact h.spread
      · rw [weightOf_handOut _ hn hnone]
        exact h.bounded name

end Whole

/-! ## Examples -/

/-- A length of tables with holes -/
def firstBorder (hosts : List (Option MpiHost)) : ℕ := (hosts.takeWhile Option.isSome).length

theorem firstBorder_map (l : List MpiHost) : firstBorder (l.map some) = l.length := by
  induction l with
  | nil => rfl
  | cons host l ih => exact congrArg Nat.succ ih

def twoNodes : List MpiHost :=
  [⟨"n1".toList, some 2, none, none⟩, ⟨"n2".toList, some 2, none, none⟩]

theorem assignHosts_four : ∃ newhosts ppn', (∀ rounds,
      assignHosts firstBorder (rounds + 1) twoNodes 4 2 = some (newhosts, ppn')) ∧
    (WellAssigned twoNodes 4 2 newhosts ↔ Distributes twoNodes 4 2) :=
  assignHosts_iff firstBorder_map (by decide) (by decide)

/-- **A process is lost**: of three processes on two hosts with two slots the first host gets two,
and the second one none. -/
theorem not_wellAssigned_three : ∃ newhosts ppn',
    (∀ rounds, assignHosts firstBorder (rounds + 1) twoNodes 3 2 = some (newhosts, ppn')) ∧
      3 ≤ (twoNodes.map (MpiHost.capacity 2)).sum ∧ ¬WellAssigned twoNodes 3 2 newhosts := by
  refine ⟨[⟨"n1".toList, 2, some 2, none⟩], 2, fun rounds => ?_, by decide, fun h => ?_⟩
  · rfl
  · exact absurd h.total (by decide)

end Likwid
