import Likwid.Lib.Run
import Mathlib.Algebra.BigOperators.Group.Finset.Basic
import Mathlib.Algebra.Order.BigOperators.Group.Finset
import Mathlib.Data.Fintype.Basic

/-!
# Requests and replies under locks

Threads share connections. A call takes the lock it chose, sends its request on
its connection, takes the next reply that arrives there, and gives the lock
back; a server at the other end of each connection answers the requests in
order. Neither requests nor replies name the caller: the numbers they carry here
are ghosts.

If calls on one connection always choose one lock (`Disciplined`), there is at
most one request or reply on a connection, that of the thread waiting there
(`Traffic`). So every reply goes to the call it answers (`Delivered`), no call
can be stuck, and the work left shrinks with every step.
-/

namespace Exchange

variable {τ κ L Q A D : Type}

/-- What a call asks, on which connection and under which lock. -/
structure Job (κ L Q : Type) where
  conn : κ
  lock : L
  request : Q

/-- Where a thread is in a call. -/
inductive Phase (κ L Q : Type) where
  | idle
  | ready (id : ℕ) (j : Job κ L Q)
  | locked (id : ℕ) (j : Job κ L Q)
  | sent (id : ℕ) (j : Job κ L Q)
  | received (id : ℕ) (j : Job κ L Q)

/-- A reply a call received, and the call whose request it answers. -/
structure Delivery (κ L Q A : Type) where
  call : ℕ
  job : Job κ L Q
  answered : ℕ
  answer : A

structure State (τ κ L Q A D : Type) where
  phase : τ → Phase κ L Q
  holder : L → Option τ
  toServer : κ → List (ℕ × Q)
  toClient : κ → List (ℕ × A)
  server : κ → D
  next : ℕ
  served : List ℕ
  delivered : List (Delivery κ L Q A)

/-- No call has been made. -/
def State.start (server : κ → D) : State τ κ L Q A D where
  phase _ := .idle
  holder _ := none
  toServer _ := []
  toClient _ := []
  server := server
  next := 0
  served := []
  delivered := []

inductive Act (τ κ L Q : Type) where
  | begin (t : τ) (j : Job κ L Q)
  | lock (t : τ)
  | send (t : τ)
  | serve (k : κ)
  | receive (t : τ)
  | unlock (t : τ)

/-- `job`, or nothing between calls. -/
def Phase.job : Phase κ L Q → Option (Job κ L Q)
  | .idle => none
  | .ready _ j | .locked _ j | .sent _ j | .received _ j => some j

/-- The lock a thread holds. -/
def Phase.held : Phase κ L Q → Option L
  | .idle | .ready _ _ => none
  | .locked _ j | .sent _ j | .received _ j => some j.lock

/-- The call that has not had its reply. -/
def Phase.pending : Phase κ L Q → Option ℕ
  | .idle | .received _ _ => none
  | .ready id _ | .locked id _ | .sent id _ => some id

section Steps

variable [DecidableEq τ] [DecidableEq κ] [DecidableEq L]
  (serves : κ → D → Q → A → D → Prop)

inductive Step (s : State τ κ L Q A D) : Act τ κ L Q → State τ κ L Q A D → Prop
  | begin (t : τ) (j : Job κ L Q) (h : s.phase t = .idle) : Step s (.begin t j)
      { s with
        phase := Function.update s.phase t (.ready s.next j)
        next := s.next + 1 }
  | lock (t : τ) (id : ℕ) (j : Job κ L Q) (h : s.phase t = .ready id j)
      (hfree : s.holder j.lock = none) : Step s (.lock t)
      { s with
        phase := Function.update s.phase t (.locked id j)
        holder := Function.update s.holder j.lock (some t) }
  | send (t : τ) (id : ℕ) (j : Job κ L Q) (h : s.phase t = .locked id j) : Step s (.send t)
      { s with
        phase := Function.update s.phase t (.sent id j)
        toServer := Function.update s.toServer j.conn (s.toServer j.conn ++ [(id, j.request)]) }
  | serve (k : κ) (id : ℕ) (q : Q) (rest : List (ℕ × Q)) (a : A) (d : D)
      (h : s.toServer k = (id, q) :: rest) (ha : serves k (s.server k) q a d) : Step s (.serve k)
      { s with
        toServer := Function.update s.toServer k rest
        toClient := Function.update s.toClient k (s.toClient k ++ [(id, a)])
        server := Function.update s.server k d
        served := id :: s.served }
  | receive (t : τ) (id : ℕ) (j : Job κ L Q) (id' : ℕ) (a : A) (rest : List (ℕ × A))
      (h : s.phase t = .sent id j) (ha : s.toClient j.conn = (id', a) :: rest) :
      Step s (.receive t)
      { s with
        phase := Function.update s.phase t (.received id j)
        toClient := Function.update s.toClient j.conn rest
        delivered := { call := id, job := j, answered := id', answer := a } :: s.delivered }
  | unlock (t : τ) (id : ℕ) (j : Job κ L Q) (h : s.phase t = .received id j) : Step s (.unlock t)
      { s with
        phase := Function.update s.phase t .idle
        holder := Function.update s.holder j.lock none }

/-- Calls with allowed jobs only. -/
def Begins (allowed : Job κ L Q → Prop) (_ : State τ κ L Q A D) : Act τ κ L Q → Prop
  | .begin _ j => allowed j
  | _ => True

end Steps

/-- Calls on one connection choose one lock. -/
def Disciplined (allowed : Job κ L Q → Prop) : Prop :=
  ∀ j j', allowed j → allowed j' → j.conn = j'.conn → j.lock = j'.lock

section Invariant

variable (allowed : Job κ L Q → Prop) (serves : κ → D → Q → A → D → Prop)

/-- The server of a connection gives this answer to the request, in some state. -/
def Answers (k : κ) (q : Q) (a : A) : Prop := ∃ d d', serves k d q a d'

/-- What is on a connection: nothing, and no thread waits there; or the request or
the reply of one waiting thread. -/
def Traffic (s : State τ κ L Q A D) (k : κ) : Prop :=
  (s.toServer k = [] ∧ s.toClient k = [] ∧
      ∀ t id j, s.phase t = .sent id j → j.conn ≠ k) ∨
    ∃ t id j, s.phase t = .sent id j ∧ j.conn = k ∧
      (s.toServer k = [(id, j.request)] ∧ s.toClient k = [] ∨
        s.toServer k = [] ∧ ∃ a, Answers serves k j.request a ∧ s.toClient k = [(id, a)])

/-- **Replies go to their callers**: a call that goes on has received a reply, what
it received answers its own request, no reply is received twice, and a reply
that nobody received is the one thing on the connection on which its caller
waits. -/
structure Delivered (s : State τ κ L Q A D) : Prop where
  got : ∀ t id j, s.phase t = .received id j → ∃ d ∈ s.delivered, d.call = id ∧ d.job = j
  own : ∀ d ∈ s.delivered, d.answered = d.call ∧ allowed d.job ∧
    Answers serves d.job.conn d.job.request d.answer
  once : (s.delivered.map (·.answered)).Nodup
  kept : ∀ id ∈ s.served, id ∈ s.delivered.map (·.answered) ∨
    ∃ t j a, s.phase t = .sent id j ∧ s.toClient j.conn = [(id, a)]

structure Inv (s : State τ κ L Q A D) : Prop extends Delivered allowed serves s where
  jobs : ∀ t j, (s.phase t).job = some j → allowed j
  locks : ∀ t l, (s.phase t).held = some l ↔ s.holder l = some t
  traffic : ∀ k, Traffic serves s k
  fresh : ∀ t id, (s.phase t).pending = some id →
    id < s.next ∧ id ∉ s.delivered.map (·.answered)
  distinct : ∀ t t' id, (s.phase t).pending = some id → (s.phase t').pending = some id → t = t'
  old : ∀ d ∈ s.delivered, d.answered < s.next

end Invariant

variable {allowed : Job κ L Q → Prop} {serves : κ → D → Q → A → D → Prop}
  {s s' : State τ κ L Q A D}

theorem inv_start (server : κ → D) : Inv (τ := τ) allowed serves (.start server) where
  got _ _ _ h := by cases h
  own _ h := absurd h List.not_mem_nil
  once := List.nodup_nil
  kept _ h := absurd h List.not_mem_nil
  jobs _ _ h := by cases h
  locks _ _ := by simp [State.start, Phase.held]
  traffic _ := Or.inl ⟨rfl, rfl, fun _ _ _ h => by cases h⟩
  fresh _ _ h := by cases h
  distinct _ _ _ h := by cases h
  old _ h := absurd h List.not_mem_nil

/-! ## Each step keeps the invariant -/

theorem Traffic.congr {k : κ} (h : Traffic serves s k) (hserver : s'.toServer k = s.toServer k)
    (hclient : s'.toClient k = s.toClient k)
    (hsent : ∀ t id j, j.conn = k → (s'.phase t = .sent id j ↔ s.phase t = .sent id j)) :
    Traffic serves s' k := by
  unfold Traffic
  rw [hserver, hclient]
  rcases h with ⟨hs, hc, hnone⟩ | ⟨t, id, j, ht, hk, hwire⟩
  · refine Or.inl ⟨hs, hc, fun t id j ht hk => ?_⟩
    exact hnone t id j ((hsent t id j hk).mp ht) hk
  · exact Or.inr ⟨t, id, j, (hsent t id j hk).mpr ht, hk, hwire⟩

theorem Inv.eq_of_held (h : Inv allowed serves s) (hd : Disciplined allowed) (t t' : τ)
    {j j' : Job κ L Q} (hj : (s.phase t).job = some j) (hj' : (s.phase t').job = some j')
    (hheld : (s.phase t).held = some j.lock) (hheld' : (s.phase t').held = some j'.lock)
    (hconn : j.conn = j'.conn) : t = t' := by
  have hlock := hd j j' (h.jobs t j hj) (h.jobs t' j' hj') hconn
  rw [hlock] at hheld
  have heq := ((h.locks t _).mp hheld).symm.trans ((h.locks t' _).mp hheld')
  exact Option.some.inj heq

variable [DecidableEq τ]

/-- A step of a thread that neither sends nor receives leaves the waiting threads. -/
theorem sent_update_iff {f : τ → Phase κ L Q} {t : τ} {p : Phase κ L Q}
    (hold : ∀ id j, f t ≠ .sent id j) (hnew : ∀ id j, p ≠ .sent id j) (t' : τ) (id : ℕ)
    (j : Job κ L Q) : Function.update f t p t' = .sent id j ↔ f t' = .sent id j := by
  by_cases ht : t' = t
  · subst ht
    simp [hold, hnew]
  · simp [ht]

theorem pending_update {f : τ → Phase κ L Q} {t : τ} {p : Phase κ L Q}
    (hp : ∀ id, p.pending = some id → (f t).pending = some id) (t' : τ) (id : ℕ)
    (h : (Function.update f t p t').pending = some id) : (f t').pending = some id := by
  by_cases ht : t' = t
  · subst ht
    exact hp id (by simpa using h)
  · simpa [ht] using h

theorem received_update {f : τ → Phase κ L Q} {t : τ} {p : Phase κ L Q}
    (hp : ∀ id j, p ≠ .received id j) (t' : τ) (id : ℕ) (j : Job κ L Q)
    (h : Function.update f t p t' = .received id j) : f t' = .received id j := by
  by_cases ht : t' = t
  · subst ht
    exact absurd (by simpa using h) (hp id j)
  · simpa [ht] using h

theorem job_update {f : τ → Phase κ L Q} {t : τ} {p : Phase κ L Q} (hp : p.job = (f t).job)
    (t' : τ) : (Function.update f t p t').job = (f t').job := by
  by_cases ht : t' = t
  · subst ht
    simp [hp]
  · simp [ht]

variable [DecidableEq κ] [DecidableEq L]

omit [DecidableEq κ] [DecidableEq L] in
theorem Inv.begin (h : Inv allowed serves s) {t : τ} {j : Job κ L Q} (ht : s.phase t = .idle)
    (hj : allowed j) : Inv allowed serves { s with
      phase := Function.update s.phase t (.ready s.next j)
      next := s.next + 1 } := by
  have hsent := sent_update_iff (f := s.phase) (t := t) (p := .ready s.next j) (by simp [ht])
    (by simp)
  refine ⟨⟨fun t' id' j' ht' => h.got t' id' j' (received_update (by simp) t' id' j' ht'),
    h.own, h.once, fun id hid => ?_⟩, fun t' j' hj' => ?_, fun t' l => ?_, fun k => ?_,
    fun t' id hid => ?_, fun t1 t2 id h1 h2 => ?_, fun d hd => ?_⟩
  · rcases h.kept id hid with hdel | ⟨t', j', a, ht', ha⟩
    · exact Or.inl hdel
    · exact Or.inr ⟨t', j', a, (hsent t' id j').mpr ht', ha⟩
  · by_cases heq : t' = t
    · subst heq
      simp only [Function.update_self, Phase.job, Option.some.injEq] at hj'
      exact hj' ▸ hj
    · simp only [Function.update_of_ne heq] at hj'
      exact h.jobs t' j' hj'
  · by_cases heq : t' = t
    · subst heq
      have hlocks := h.locks t' l
      rw [ht] at hlocks
      simpa [Phase.held] using hlocks
    · simpa [heq] using h.locks t' l
  · exact (h.traffic k).congr rfl rfl fun t' id j' _ => hsent t' id j'
  · by_cases heq : t' = t
    · subst heq
      simp only [Function.update_self, Phase.pending, Option.some.injEq] at hid
      subst hid
      refine ⟨Nat.lt_succ_self _, fun hmem => ?_⟩
      obtain ⟨d, hd, hnext⟩ := List.mem_map.mp hmem
      exact absurd (h.old d hd) (by omega)
    · simp only [Function.update_of_ne heq] at hid
      exact ⟨Nat.lt_succ_of_lt (h.fresh t' id hid).1, (h.fresh t' id hid).2⟩
  · -- the new number is above all that are pending
    have hnew : ∀ t', t' ≠ t → (s.phase t').pending ≠ some s.next := fun t' _ hp =>
      absurd (h.fresh t' _ hp).1 (by omega)
    by_cases he1 : t1 = t <;> by_cases he2 : t2 = t
    · rw [he1, he2]
    · simp only [he1, Function.update_self, Phase.pending, Option.some.injEq] at h1
      simp only [Function.update_of_ne he2, ← h1] at h2
      exact absurd h2 (hnew t2 he2)
    · simp only [he2, Function.update_self, Phase.pending, Option.some.injEq] at h2
      simp only [Function.update_of_ne he1, ← h2] at h1
      exact absurd h1 (hnew t1 he1)
    · simp only [Function.update_of_ne he1] at h1
      simp only [Function.update_of_ne he2] at h2
      exact h.distinct t1 t2 id h1 h2
  · exact Nat.lt_succ_of_lt (h.old d hd)

omit [DecidableEq κ] in
theorem Inv.lock (h : Inv allowed serves s) {t : τ} {id : ℕ} {j : Job κ L Q}
    (ht : s.phase t = .ready id j) (hfree : s.holder j.lock = none) : Inv allowed serves { s with
      phase := Function.update s.phase t (.locked id j)
      holder := Function.update s.holder j.lock (some t) } := by
  have hsent := sent_update_iff (f := s.phase) (t := t) (p := .locked id j) (by simp [ht]) (by simp)
  have hpending := pending_update (f := s.phase) (t := t) (p := .locked id j)
    (by simp [ht, Phase.pending])
  have hjob := job_update (f := s.phase) (t := t) (p := .locked id j) (by simp [ht, Phase.job])
  refine ⟨⟨fun t' id' j' ht' => h.got t' id' j' (received_update (by simp) t' id' j' ht'),
    h.own, h.once, fun id' hid => ?_⟩, fun t' j' hj' => h.jobs t' j' (hjob t' ▸ hj'),
    fun t' l => ?_, fun k => (h.traffic k).congr rfl rfl fun t' id' j' _ => hsent t' id' j',
    fun t' id' hid => h.fresh t' id' (hpending t' id' hid),
    fun t1 t2 id' h1 h2 => h.distinct t1 t2 id' (hpending t1 id' h1) (hpending t2 id' h2), h.old⟩
  · rcases h.kept id' hid with hdel | ⟨t', j', a, ht', ha⟩
    · exact Or.inl hdel
    · exact Or.inr ⟨t', j', a, (hsent t' id' j').mpr ht', ha⟩
  · have hlocks := h.locks t' l
    by_cases heq : t' = t <;> by_cases hl : l = j.lock
    · subst heq hl
      simp [Phase.held]
    · subst heq
      rw [ht] at hlocks
      simp only [Phase.held, reduceCtorEq, false_iff] at hlocks
      simpa [Phase.held, Function.update_of_ne hl, hlocks] using Ne.symm hl
    · -- another thread cannot hold the lock that was free
      subst hl
      rw [hfree] at hlocks
      simp only [reduceCtorEq, iff_false] at hlocks
      simpa [heq, hlocks] using Ne.symm heq
    · simpa [heq, hl] using hlocks

omit [DecidableEq L] in
theorem Inv.send (h : Inv allowed serves s) (hd : Disciplined allowed) {t : τ} {id : ℕ}
    {j : Job κ L Q} (ht : s.phase t = .locked id j) : Inv allowed serves { s with
      phase := Function.update s.phase t (.sent id j)
      toServer := Function.update s.toServer j.conn
        (s.toServer j.conn ++ [(id, j.request)]) } := by
  have hpending := pending_update (f := s.phase) (t := t) (p := .sent id j)
    (by simp [ht, Phase.pending])
  have hjob := job_update (f := s.phase) (t := t) (p := .sent id j) (by simp [ht, Phase.job])
  refine ⟨⟨fun t' id' j' ht' => h.got t' id' j' (received_update (by simp) t' id' j' ht'),
    h.own, h.once, fun id' hid => ?_⟩, fun t' j' hj' => h.jobs t' j' (hjob t' ▸ hj'),
    fun t' l => ?_, fun k => ?_, fun t' id' hid => h.fresh t' id' (hpending t' id' hid),
    fun t1 t2 id' h1 h2 => h.distinct t1 t2 id' (hpending t1 id' h1) (hpending t2 id' h2), h.old⟩
  · rcases h.kept id' hid with hdel | ⟨t', j', a, ht', ha⟩
    · exact Or.inl hdel
    · have hne : t' ≠ t := by
        rintro rfl
        rw [ht] at ht'
        cases ht'
      exact Or.inr ⟨t', j', a, by simpa [hne] using ht', ha⟩
  · have hlocks := h.locks t' l
    by_cases heq : t' = t
    · subst heq
      rw [ht] at hlocks
      simpa [Phase.held] using hlocks
    · simpa [heq] using hlocks
  · by_cases hk : k = j.conn
    · subst hk
      rcases h.traffic j.conn with ⟨hs, hc, _⟩ | ⟨t', id', j', ht', hconn, _⟩
      · exact Or.inr ⟨t, id, j, by simp, rfl, Or.inl ⟨by simp [hs], hc⟩⟩
      · -- a thread that waits here holds the lock of this one
        have heq := h.eq_of_held hd t t' (by rw [ht]; rfl) (by rw [ht']; rfl)
          (by rw [ht]; rfl) (by rw [ht']; rfl) hconn.symm
        subst heq
        rw [ht] at ht'
        cases ht'
    · refine (h.traffic k).congr (Function.update_of_ne hk _ _) rfl fun t' id' j' hj' => ?_
      by_cases heq : t' = t
      · subst heq
        simp only [Function.update_self, ht, Phase.sent.injEq, reduceCtorEq, iff_false, not_and]
        rintro _ rfl
        exact hk hj'.symm
      · simp [heq]

omit [DecidableEq τ] [DecidableEq L] in
theorem Inv.serve (h : Inv allowed serves s) {k : κ} {id : ℕ} {q : Q} {rest : List (ℕ × Q)}
    {a : A} {d : D} (hk : s.toServer k = (id, q) :: rest) (ha : serves k (s.server k) q a d) :
    Inv allowed serves { s with
      toServer := Function.update s.toServer k rest
      toClient := Function.update s.toClient k (s.toClient k ++ [(id, a)])
      server := Function.update s.server k d
      served := id :: s.served } := by
  -- the request is the only thing on the connection
  obtain ⟨t, j, ht, hconn, hq, hrest, hnone⟩ : ∃ t j, s.phase t = .sent id j ∧ j.conn = k ∧
      q = j.request ∧ rest = [] ∧ s.toClient k = [] := by
    rcases h.traffic k with ⟨hs, _⟩ | ⟨t, id', j, ht, hconn, ⟨hs, hc⟩ | ⟨hs, _⟩⟩
    · simp [hs] at hk
    · rw [hs] at hk
      obtain ⟨hfirst, hrest⟩ := List.cons.inj hk
      obtain ⟨rfl, rfl⟩ := Prod.mk.inj hfirst
      exact ⟨t, j, ht, hconn, rfl, hrest.symm, hc⟩
    · simp [hs] at hk
  subst hq hrest
  refine ⟨⟨h.got, h.own, h.once, fun id' hid => ?_⟩, h.jobs, h.locks, fun k' => ?_, h.fresh,
    h.distinct, h.old⟩
  · rcases List.mem_cons.mp hid with rfl | hold
    · exact Or.inr ⟨t, j, a, ht, by simp [hconn, hnone]⟩
    · rcases h.kept id' hold with hdel | ⟨t', j', a', ht', ha'⟩
      · exact Or.inl hdel
      · have hne : j'.conn ≠ k := by
          intro heq
          simp [heq, hnone] at ha'
        exact Or.inr ⟨t', j', a', ht', by simpa [hne] using ha'⟩
  · by_cases hk' : k' = k
    · subst hk'
      exact Or.inr ⟨t, id, j, ht, hconn, Or.inr ⟨by simp, a, ⟨_, _, ha⟩, by simp [hnone]⟩⟩
    · exact (h.traffic k').congr (Function.update_of_ne hk' _ _) (Function.update_of_ne hk' _ _)
        fun _ _ _ _ => Iff.rfl

omit [DecidableEq L] in
theorem Inv.receive (h : Inv allowed serves s) (hd : Disciplined allowed) {t : τ} {id id' : ℕ}
    {j : Job κ L Q} {a : A} {rest : List (ℕ × A)} (ht : s.phase t = .sent id j)
    (ha : s.toClient j.conn = (id', a) :: rest) : Inv allowed serves { s with
      phase := Function.update s.phase t (.received id j)
      toClient := Function.update s.toClient j.conn rest
      delivered := { call := id, job := j, answered := id', answer := a } :: s.delivered } := by
  have hunique : ∀ t' id'' j', s.phase t' = .sent id'' j' → j'.conn = j.conn → t' = t := by
    intro t' id'' j' ht' hconn
    exact h.eq_of_held hd t' t (by rw [ht']; rfl) (by rw [ht]; rfl) (by rw [ht']; rfl)
      (by rw [ht]; rfl) hconn
  -- the reply is the only thing on the connection
  obtain ⟨hid, hrest, hanswer, hnone⟩ : id' = id ∧ rest = [] ∧
      Answers serves j.conn j.request a ∧ s.toServer j.conn = [] := by
    rcases h.traffic j.conn with
      ⟨_, hc, _⟩ | ⟨t', id'', j', ht', hconn, ⟨_, hc⟩ | ⟨hs, a', ha', hc⟩⟩
    · simp [hc] at ha
    · simp [hc] at ha
    · obtain rfl := hunique t' id'' j' ht' hconn
      obtain ⟨rfl, rfl⟩ := Phase.sent.inj (ht'.symm.trans ht)
      rw [hc] at ha
      obtain ⟨hfirst, hrest⟩ := List.cons.inj ha
      obtain ⟨rfl, rfl⟩ := Prod.mk.inj hfirst
      exact ⟨rfl, hrest.symm, ha', hs⟩
  subst hid hrest
  have hpending := pending_update (f := s.phase) (t := t) (p := .received id' j)
    (by simp [Phase.pending])
  have hjob := job_update (f := s.phase) (t := t) (p := .received id' j) (by simp [ht, Phase.job])
  have hmine : (s.phase t).pending = some id' := by rw [ht]; rfl
  refine ⟨⟨fun t' id j' ht' => ?_, fun d hdel => ?_, ?_, fun id hid => ?_⟩,
    fun t' j' hj' => h.jobs t' j' (hjob t' ▸ hj'), fun t' l => ?_, fun k => ?_, fun t' id hid => ?_,
    fun t1 t2 id h1 h2 => h.distinct t1 t2 id (hpending t1 id h1) (hpending t2 id h2),
    fun d hdel => ?_⟩
  · by_cases heq : t' = t
    · subst heq
      simp only [Function.update_self, Phase.received.injEq] at ht'
      exact ⟨_, List.mem_cons_self .., ht'⟩
    · obtain ⟨d, hdel, hd'⟩ := h.got t' id j' (by simpa [heq] using ht')
      exact ⟨d, List.mem_cons_of_mem _ hdel, hd'⟩
  · rcases List.mem_cons.mp hdel with rfl | hold
    · exact ⟨rfl, h.jobs t j (by rw [ht]; rfl), hanswer⟩
    · exact h.own d hold
  · exact List.nodup_cons.mpr ⟨(h.fresh t id' hmine).2, h.once⟩
  · rcases h.kept id hid with hdel | ⟨t', j', a', ht', ha'⟩
    · exact Or.inl (List.mem_cons_of_mem _ hdel)
    · by_cases heq : t' = t
      · subst heq
        obtain ⟨rfl, rfl⟩ := Phase.sent.inj (ht'.symm.trans ht)
        exact Or.inl (List.mem_cons_self ..)
      · have hne : j'.conn ≠ j.conn := fun hconn => heq (hunique t' id j' ht' hconn)
        exact Or.inr ⟨t', j', a', by simpa [heq] using ht', by simpa [hne] using ha'⟩
  · have hlocks := h.locks t' l
    by_cases heq : t' = t
    · subst heq
      rw [ht] at hlocks
      simpa [Phase.held] using hlocks
    · simpa [heq] using hlocks
  · by_cases hk : k = j.conn
    · subst hk
      refine Or.inl ⟨hnone, by simp, fun t' id j' ht' hconn => ?_⟩
      by_cases heq : t' = t
      · subst heq
        simp at ht'
      · exact heq (hunique t' id j' (by simpa [heq] using ht') hconn)
    · refine (h.traffic k).congr rfl (Function.update_of_ne hk _ _) fun t' id j' hj' => ?_
      by_cases heq : t' = t
      · subst heq
        simp only [Function.update_self, ht, Phase.sent.injEq, reduceCtorEq, false_iff, not_and]
        rintro _ rfl
        exact hk hj'.symm
      · simp [heq]
  · refine ⟨(h.fresh t' id (hpending t' id hid)).1, fun hmem => ?_⟩
    rcases List.mem_cons.mp hmem with heq | hold
    · -- the caller's own number is no longer pending
      obtain rfl : id = id' := heq
      have hsame := h.distinct t' t id (hpending t' id hid) hmine
      subst hsame
      simp [Phase.pending] at hid
    · exact (h.fresh t' id (hpending t' id hid)).2 hold
  · rcases List.mem_cons.mp hdel with rfl | hold
    · exact (h.fresh t id' hmine).1
    · exact h.old d hold

omit [DecidableEq κ] in
theorem Inv.unlock (h : Inv allowed serves s) {t : τ} {id : ℕ} {j : Job κ L Q}
    (ht : s.phase t = .received id j) : Inv allowed serves { s with
      phase := Function.update s.phase t .idle
      holder := Function.update s.holder j.lock none } := by
  have hsent := sent_update_iff (f := s.phase) (t := t) (p := .idle) (by simp [ht]) (by simp)
  have hpending := pending_update (f := s.phase) (t := t) (p := .idle) (by simp [Phase.pending])
  refine ⟨⟨fun t' id' j' ht' => h.got t' id' j' (received_update (by simp) t' id' j' ht'),
    h.own, h.once, fun id' hid => ?_⟩, fun t' j' hj' => ?_, fun t' l => ?_,
    fun k => (h.traffic k).congr rfl rfl fun t' id' j' _ => hsent t' id' j',
    fun t' id' hid => h.fresh t' id' (hpending t' id' hid),
    fun t1 t2 id' h1 h2 => h.distinct t1 t2 id' (hpending t1 id' h1) (hpending t2 id' h2), h.old⟩
  · rcases h.kept id' hid with hdel | ⟨t', j', a, ht', ha⟩
    · exact Or.inl hdel
    · exact Or.inr ⟨t', j', a, (hsent t' id' j').mpr ht', ha⟩
  · by_cases heq : t' = t
    · subst heq
      simp [Phase.job] at hj'
    · exact h.jobs t' j' (by simpa [heq] using hj')
  · have hlocks := h.locks t' l
    by_cases heq : t' = t <;> by_cases hl : l = j.lock
    · subst heq hl
      simp [Phase.held]
    · subst heq
      rw [ht] at hlocks
      simp only [Phase.held, Option.some.injEq] at hlocks
      have hnot : ¬s.holder l = some t' := fun hl' => hl (hlocks.mpr hl').symm
      simpa [Phase.held, hl] using hnot
    · -- the lock given back was held by this thread alone
      subst hl
      have hmine := (h.locks t j.lock).mp (by rw [ht]; rfl)
      rw [hmine] at hlocks
      simp only [Option.some.injEq, Ne.symm heq, iff_false] at hlocks
      simpa [heq] using hlocks
    · simpa [heq, hl] using hlocks

/-- **Each step keeps the invariant**, if the calls begun are allowed. -/
theorem Inv.step (h : Inv allowed serves s) (hd : Disciplined allowed) {act : Act τ κ L Q}
    (hact : Begins allowed s act) (hs : Step serves s act s') : Inv allowed serves s' := by
  cases hs with
  | begin t j ht => exact h.begin ht hact
  | lock t id j ht hfree => exact h.lock ht hfree
  | send t id j ht => exact h.send hd ht
  | serve k id q rest a d hk ha => exact h.serve hk ha
  | receive t id j id' a rest ht ha => exact h.receive hd ht ha
  | unlock t id j ht => exact h.unlock ht

/-! ## The call of a thread -/

/-- Every step but the start and the end of a call. -/
def Act.Within : Act τ κ L Q → Prop
  | .begin _ _ | .unlock _ => False
  | _ => True

theorem job_of_step {act : Act τ κ L Q}
    (hact : act.Within) (hs : Step serves s act s') (t : τ) :
    (s'.phase t).job = (s.phase t).job := by
  cases hs with
  | begin t' j ht => exact hact.elim
  | unlock t' id j ht => exact hact.elim
  | lock t' id j ht hfree => exact job_update (by rw [ht]; rfl) t
  | send t' id j ht => exact job_update (by rw [ht]; rfl) t
  | receive t' id j id' a rest ht ha => exact job_update (by rw [ht]; rfl) t
  | serve k id q rest a d hk ha => rfl

theorem delivered_of_step {act : Act τ κ L Q} (hs : Step serves s act s') :
    s.delivered ⊆ s'.delivered := by
  cases hs with
  | receive t id j id' a rest ht ha => exact List.subset_cons_self _ _
  | begin | lock | send | serve | unlock => exact List.Subset.refl _

/-! ## No call is stuck -/

/-- Every step but the start of a call. -/
def Act.Works : Act τ κ L Q → Prop
  | .begin _ _ => False
  | _ => True

/-- The request that comes next on the connection is one its server does not answer. -/
def Unanswered (serves : κ → D → Q → A → D → Prop) (s : State τ κ L Q A D) (k : κ) : Prop :=
  ∃ id q rest, s.toServer k = (id, q) :: rest ∧ ∀ a d, ¬serves k (s.server k) q a d

/-- A thread that holds a lock can go on, or its server does not answer it. -/
theorem progress_of_held (h : Inv allowed serves s) {t : τ} {l : L}
    (ht : (s.phase t).held = some l) :
    (∃ act s', act.Works ∧ Step serves s act s') ∨ ∃ k, Unanswered serves s k := by
  cases hp : s.phase t with
  | idle | ready id j =>
      rw [hp] at ht
      cases ht
  | locked id j => exact Or.inl ⟨.send t, _, trivial, .send t id j hp⟩
  | received id j => exact Or.inl ⟨.unlock t, _, trivial, .unlock t id j hp⟩
  | sent id j =>
      rcases h.traffic j.conn with ⟨_, _, hnone⟩ | ⟨t', id', j', _, _, ⟨hs, _⟩ | ⟨_, a, _, hc⟩⟩
      · exact absurd rfl (hnone t id j hp)
      · by_cases ha : ∃ a d, serves j.conn (s.server j.conn) j'.request a d
        · obtain ⟨a, d, ha⟩ := ha
          exact Or.inl ⟨.serve j.conn, _, trivial, .serve _ _ _ _ a d hs ha⟩
        · exact Or.inr ⟨j.conn, _, _, _, hs, fun a d had => ha ⟨a, d, had⟩⟩
      · exact Or.inl ⟨.receive t, _, trivial, .receive t id j _ a _ hp hc⟩

/-- **No call is stuck**: while a call has not returned, some thread or server
can go on, unless a server does not answer a request it has. -/
theorem progress (h : Inv allowed serves s) {t : τ} (ht : s.phase t ≠ .idle) :
    (∃ act s', act.Works ∧ Step serves s act s') ∨ ∃ k, Unanswered serves s k := by
  cases hp : s.phase t with
  | idle => exact absurd hp ht
  | locked id j | sent id j | received id j =>
      exact progress_of_held h (t := t) (l := j.lock) (by rw [hp]; rfl)
  | ready id j =>
      cases hl : s.holder j.lock with
      | none => exact Or.inl ⟨.lock t, _, trivial, .lock t id j hp hl⟩
      | some t' => exact progress_of_held h ((h.locks t' j.lock).mpr hl)

/-- The steps a call still needs, those of the server included. -/
def remaining (s : State τ κ L Q A D) (t : τ) : ℕ :=
  match s.phase t with
  | .idle => 0
  | .ready _ _ => 5
  | .locked _ _ => 4
  | .sent _ j => 2 + (s.toServer j.conn).length
  | .received _ _ => 1

/-- A step leaves less to do for one thread and no more for any other. -/
theorem remaining_step (h : Inv allowed serves s) (hd : Disciplined allowed)
    {act : Act τ κ L Q} (hact : act.Works) (hs : Step serves s act s') :
    (∃ t, remaining s' t < remaining s t) ∧ ∀ t, remaining s' t ≤ remaining s t := by
  cases hs with
  | begin t j ht => exact hact.elim
  | lock t id j ht hfree =>
      refine ⟨⟨t, by simp [remaining, ht]⟩, fun t' => ?_⟩
      by_cases heq : t' = t
      · subst heq
        simp [remaining, ht]
      · simp [remaining, heq]
  | send t id j ht =>
      have hempty : s.toServer j.conn = [] ∧ ∀ t' id' j', s.phase t' = .sent id' j' →
          j'.conn ≠ j.conn := by
        rcases h.traffic j.conn with ⟨hs, _, hnone⟩ | ⟨t', id', j', ht', hconn, _⟩
        · exact ⟨hs, hnone⟩
        · have heq := h.eq_of_held hd t t' (by rw [ht]; rfl) (by rw [ht']; rfl)
            (by rw [ht]; rfl) (by rw [ht']; rfl) hconn.symm
          subst heq
          rw [ht] at ht'
          cases ht'
      refine ⟨⟨t, by simp [remaining, ht, hempty.1]⟩, fun t' => ?_⟩
      by_cases heq : t' = t
      · subst heq
        simp [remaining, ht, hempty.1]
      · unfold remaining
        simp only [Function.update_of_ne heq]
        cases hp : s.phase t' with
        | sent id' j' => simp [Function.update_of_ne (hempty.2 t' id' j' hp)]
        | _ => exact le_rfl
  | serve k id q rest a d hk ha =>
      have hle : ∀ t, remaining { s with
          toServer := Function.update s.toServer k rest
          toClient := Function.update s.toClient k (s.toClient k ++ [(id, a)])
          server := Function.update s.server k d
          served := id :: s.served } t ≤ remaining s t := by
        intro t
        unfold remaining
        cases hp : s.phase t with
        | sent id' j' =>
            by_cases hj : j'.conn = k
            · simp [hj, hk]
            · simp [hj]
        | _ => exact le_rfl
      refine ⟨?_, hle⟩
      rcases h.traffic k with ⟨hs, _⟩ | ⟨t, id', j, ht, hconn, _⟩
      · simp [hs] at hk
      · exact ⟨t, by simp [remaining, ht, hconn, hk]⟩
  | receive t id j id' a rest ht ha =>
      refine ⟨⟨t, by simp only [remaining, Function.update_self, ht]; omega⟩, fun t' => ?_⟩
      by_cases heq : t' = t
      · subst heq
        simp only [remaining, Function.update_self, ht]
        omega
      · simp [remaining, heq]
  | unlock t id j ht =>
      refine ⟨⟨t, by simp [remaining, ht]⟩, fun t' => ?_⟩
      by_cases heq : t' = t
      · subst heq
        simp [remaining]
      · simp [remaining, heq]

/-- **The work left shrinks** with every step, over all threads together. -/
theorem sum_remaining_step [Fintype τ] (h : Inv allowed serves s) (hd : Disciplined allowed)
    {act : Act τ κ L Q} (hact : act.Works) (hs : Step serves s act s') :
    ∑ t, remaining s' t < ∑ t, remaining s t := by
  obtain ⟨⟨t, hlt⟩, hle⟩ := remaining_step h hd hact hs
  exact Finset.sum_lt_sum (fun t _ => hle t) ⟨t, Finset.mem_univ t, hlt⟩

end Exchange
