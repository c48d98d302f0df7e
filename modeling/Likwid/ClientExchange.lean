import Likwid.AccessClient
import Likwid.Lib.Exchange

/-!
# Threads sharing the connections

The calls of any number of threads, between an initialisation and a
finalisation, are exchanges under locks: a CPU's own connection is used under
the lock of that CPU, the global one under `globalLock`, whichever call and CPU
chose it (`calls_disciplined`). So every call that asks its daemon receives the
reply to its own request. `access_client_check` alone does not always ask: for a
CPU without a connection it answers `0` unless there is exactly one connection
(`ownReplies_of_run`).
-/

namespace Likwid

variable {n : ℕ} {core2node : ℕ → ℕ} {c : Client n} {s : Session n} {τ : Type}

def Request.job (q : Request n) : Exchange.Job Int (AccessLock n) AccessDataRecord where
  conn := q.socket
  lock := q.lock
  request := q.record

/-- The requests of `access_client_read`, `access_client_write` and
`access_client_check`. -/
def Client.Calls (core2node : ℕ → ℕ) (c : Client n)
    (j : Exchange.Job Int (AccessLock n) AccessDataRecord) : Prop :=
  ∃ op q, ClientOp.request core2node c op = some q ∧ q.job = j

/-- The daemon of a connection replies; what it finds in the registers may be
different each time. -/
def DaemonServes (setup : Int → DaemonSetup) (k : Int) (d : Daemon)
    (dRecord reply : AccessDataRecord) (d' : Daemon) : Prop :=
  ∃ files, serve files (setup k) dRecord d = .done reply d'

/-! ## One lock for each connection -/

theorem connection_lock (c : Client n) (cpu : Fin n) :
    (0 ≤ c.cpuSockets cpu ∧ c.connection cpu = (c.cpuSockets cpu, .cpuLocks cpu) ∧
        c.cpuSockets cpu ≠ c.globalSocket) ∨
      c.connection cpu = (c.globalSocket, .globalLock) := by
  unfold Client.connection
  split
  · next hown => exact Or.inl ⟨hown.1, rfl, hown.2⟩
  · exact Or.inr rfl

/-- A request goes to the CPU's own connection under the lock of the CPU, or to
the global one under `globalLock`. -/
theorem request_lock {op : ClientOp n} {q : Request n} (h : op.request core2node c = some q) :
    (∃ cpu, 0 ≤ c.cpuSockets cpu ∧ q.socket = c.cpuSockets cpu ∧ q.lock = .cpuLocks cpu ∧
        q.socket ≠ c.globalSocket) ∨
      q.socket = c.globalSocket ∧ q.lock = .globalLock := by
  have hconnection : ∀ cpu, q.socket = (c.connection cpu).1 → q.lock = (c.connection cpu).2 →
      (∃ cpu, 0 ≤ c.cpuSockets cpu ∧ q.socket = c.cpuSockets cpu ∧ q.lock = .cpuLocks cpu ∧
        q.socket ≠ c.globalSocket) ∨ q.socket = c.globalSocket ∧ q.lock = .globalLock := by
    intro cpu hsocket hlock
    rcases connection_lock c cpu with ⟨h0, heq, hne⟩ | heq
    · rw [heq] at hsocket hlock
      exact Or.inl ⟨cpu, h0, hsocket, hlock, hsocket ▸ hne⟩
    · rw [heq] at hsocket hlock
      exact Or.inr ⟨hsocket, hlock⟩
  cases op with
  | init | finalize => cases h
  | read dev cpu reg =>
      obtain ⟨hsocket, hlock, _⟩ := readRequest_socket h
      exact hconnection cpu hsocket hlock
  | write dev cpu reg data =>
      obtain ⟨hsocket, hlock, _⟩ := writeRequest_socket h
      exact hconnection cpu hsocket hlock
  | check dev cpu =>
      rcases checkRequest_socket h with ⟨hsocket, hlock, hpos, hne⟩ | ⟨hsocket, hlock, _⟩
      · exact Or.inl ⟨cpu, hsocket ▸ hpos.le, hsocket, hlock, hne⟩
      · exact Or.inr ⟨hsocket, hlock⟩

theorem calls_disciplined (h : TableSound s) :
    Exchange.Disciplined (s.client.Calls core2node) := by
  rintro _ _ ⟨op, q, hq, rfl⟩ ⟨op', q', hq', rfl⟩ hconn
  have hsocket : q.socket = q'.socket := hconn
  show q.lock = q'.lock
  rcases request_lock hq with ⟨cpu, h0, hown, hlock, hne⟩ | ⟨hglobal, hlock⟩ <;>
    rcases request_lock hq' with ⟨cpu', _, hown', hlock', hne'⟩ | ⟨hglobal', hlock'⟩
  · have hcpu : cpu = cpu' :=
      h.distinct cpu cpu' h0 (hown.symm.trans (hsocket.trans hown'))
    rw [hlock, hlock', hcpu]
  · exact absurd (hsocket.trans hglobal') hne
  · exact absurd (hsocket.symm.trans hglobal) hne'
  · rw [hlock, hlock']

/-! ## Every interleaving -/

/-- A call that has returned: the delivery it received, if it asked for one, and
the code and `*data` it returned. -/
structure Returned (n : ℕ) where
  op : ClientOp n
  delivery : Option (Exchange.Delivery Int (AccessLock n) AccessDataRecord AccessDataRecord)
  value : Int × Word

/-- The connections with the daemons, the call each thread is in, and the calls
that have returned. -/
structure Callers (τ : Type) (n : ℕ) where
  wire : Exchange.State τ Int (AccessLock n) AccessDataRecord AccessDataRecord Daemon
  call : τ → Option (ClientOp n)
  returned : List (Returned n)

def Callers.start (daemons : Int → Daemon) : Callers τ n where
  wire := .start daemons
  call _ := none
  returned := []

inductive CallAct (τ : Type) (n : ℕ) where
  | call (t : τ) (op : ClientOp n)
  | work (act : Exchange.Act τ Int (AccessLock n) AccessDataRecord)

section Steps

variable [DecidableEq τ] (core2node : ℕ → ℕ) (c : Client n) (setup : Int → DaemonSetup)

/-- A call that asks its daemon goes through an exchange and returns what it makes
of the reply; another returns at once. -/
inductive CallStep (e : Callers τ n) : CallAct τ n → Callers τ n → Prop
  | ask (t : τ) (op : ClientOp n) (q : Request n)
      (wire : Exchange.State τ Int (AccessLock n) AccessDataRecord AccessDataRecord Daemon)
      (hask : op.ask core2node c = .ok q)
      (hs : Exchange.Step (DaemonServes setup) e.wire (.begin t q.job) wire) :
      CallStep e (.call t op)
        { e with wire := wire, call := Function.update e.call t (some op) }
  | unasked (t : τ) (op : ClientOp n) (code : Int) (hidle : e.wire.phase t = .idle)
      (hask : op.ask core2node c = .error code) :
      CallStep e (.call t op) { e with returned := ⟨op, none, (code, 0)⟩ :: e.returned }
  | work (act : Exchange.Act τ Int (AccessLock n) AccessDataRecord)
      (wire : Exchange.State τ Int (AccessLock n) AccessDataRecord AccessDataRecord Daemon)
      (hact : act.Within) (hs : Exchange.Step (DaemonServes setup) e.wire act wire) :
      CallStep e (.work act) { e with wire := wire }
  | unlock (t : τ) (id : ℕ) (j : Exchange.Job Int (AccessLock n) AccessDataRecord)
      (op : ClientOp n)
      (d : Exchange.Delivery Int (AccessLock n) AccessDataRecord AccessDataRecord)
      (wire : Exchange.State τ Int (AccessLock n) AccessDataRecord AccessDataRecord Daemon)
      (hop : e.call t = some op) (ht : e.wire.phase t = .received id j)
      (hd : d ∈ e.wire.delivered) (hcall : d.call = id)
      (hs : Exchange.Step (DaemonServes setup) e.wire (.unlock t) wire) :
      CallStep e (.work (.unlock t))
        { wire := wire
          call := Function.update e.call t none
          returned := ⟨op, some d, op.result d.answer⟩ :: e.returned }

/-- The call asks its daemon: a check does so for a CPU with a connection of its
own, and for another only where there is one connection; descriptor `0` counts as
none. -/
def Client.Asks : ClientOp n → Prop
  | .read _ _ _ | .write _ _ _ _ => True
  | .check _ cpu => 0 < c.cpuSockets cpu ∨ c.cpuSocketsOpen = 1 ∧ 0 < c.globalSocket
  | .init _ _ | .finalize _ => False

/-- The calls that begin ask their daemon. -/
def Asking (_ : Callers τ n) : CallAct τ n → Prop
  | .call _ op => c.Asks op
  | .work _ => True

/-- **The reply to its own request**: the call asked for it, received it as the
daemon of its connection gave it, and returned what it makes of it. -/
def Returned.Own (e : Callers τ n) (r : Returned n) : Prop :=
  ∃ q d, r.op.ask core2node c = .ok q ∧ r.delivery = some d ∧ d ∈ e.wire.delivered ∧
    d.job = q.job ∧ d.answered = d.call ∧
      Exchange.Answers (DaemonServes setup) q.socket q.record d.answer ∧
        r.value = r.op.result d.answer

end Steps

/-- **Shared connections**: a call that has returned received the reply to its own
request, replies go to their callers, requests are on open connections only, and
every call ends, unless a daemon does not answer a record it has. -/
structure OwnReplies [Fintype τ] [DecidableEq τ] (core2node : ℕ → ℕ) (s : Session n)
    (setup : Int → DaemonSetup) (e : Callers τ n) : Prop where
  returned : ∀ r ∈ e.returned, r.Own core2node s.client setup e
  delivered : Exchange.Delivered (s.client.Calls core2node) (DaemonServes setup) e.wire
  onOpen : ∀ k, e.wire.toServer k ≠ [] → k ∈ s.openFds
  live : ∀ t, e.wire.phase t ≠ .idle →
    (∃ act e', CallStep core2node s.client setup e (.work act) e') ∨
      ∃ k, Exchange.Unanswered (DaemonServes setup) e.wire k
  ends : ∀ act e', CallStep core2node s.client setup e (.work act) e' →
    ∑ t, Exchange.remaining e'.wire t < ∑ t, Exchange.remaining e.wire t

section Run

variable [DecidableEq τ] {setup : Int → DaemonSetup} {daemons : Int → Daemon}
  {e e' : Callers τ n} {act : CallAct τ n}

/-- The exchange is sound, and a thread in it is in a call that asked for it. -/
structure CallersInv (core2node : ℕ → ℕ) (c : Client n) (setup : Int → DaemonSetup)
    (e : Callers τ n) : Prop where
  wire : Exchange.Inv (c.Calls core2node) (DaemonServes setup) e.wire
  busy : ∀ t j, (e.wire.phase t).job = some j →
    ∃ op q, e.call t = some op ∧ op.ask core2node c = .ok q ∧ q.job = j
  returned : ∀ r ∈ e.returned, r.Own core2node c setup e

theorem calls_of_ask {op : ClientOp n} {q : Request n} (h : op.ask core2node c = .ok q) :
    c.Calls core2node q.job :=
  ⟨op, q, by rw [ClientOp.request_eq_ask, h]; rfl, rfl⟩

omit [DecidableEq τ] in
theorem callersInv_start : CallersInv core2node c setup (.start daemons : Callers τ n) where
  wire := Exchange.inv_start daemons
  busy _ _ h := by cases h
  returned _ h := absurd h List.not_mem_nil

omit [DecidableEq τ] in
theorem Returned.Own.mono {r : Returned n} (h : r.Own core2node c setup e)
    (hsub : e.wire.delivered ⊆ e'.wire.delivered) : r.Own core2node c setup e' := by
  obtain ⟨q, d, hask, hdelivery, hmem, hjob, hanswered, hanswers, hvalue⟩ := h
  exact ⟨q, d, hask, hdelivery, hsub hmem, hjob, hanswered, hanswers, hvalue⟩

omit [DecidableEq τ] in
/-- The call returns with the delivery of its number, which answers its request. -/
theorem own_of_received (h : CallersInv core2node c setup e) {t : τ} {id : ℕ}
    {j : Exchange.Job Int (AccessLock n) AccessDataRecord} {op : ClientOp n}
    {d : Exchange.Delivery Int (AccessLock n) AccessDataRecord AccessDataRecord}
    (hop : e.call t = some op) (ht : e.wire.phase t = .received id j)
    (hd : d ∈ e.wire.delivered) (hcall : d.call = id) :
    (⟨op, some d, op.result d.answer⟩ : Returned n).Own core2node c setup e := by
  obtain ⟨op', q, hop', hask, rfl⟩ := h.busy t j (by rw [ht]; rfl)
  obtain rfl : op = op' := Option.some.inj (hop.symm.trans hop')
  obtain ⟨d', hd', hcall', hjob'⟩ := h.wire.got t id q.job ht
  obtain ⟨hanswered, _, hanswers⟩ := h.wire.own d hd
  -- no other delivery has the number of the call
  have heq : d = d' := by
    refine List.inj_on_of_nodup_map h.wire.once hd hd' ?_
    rw [hanswered, (h.wire.own d' hd').1, hcall, hcall']
  subst heq
  rw [hjob'] at hanswers
  exact ⟨q, d, hask, rfl, hd, hjob', hanswered, hanswers, rfl⟩

/-- **One step** of a call that asks its daemon. -/
theorem CallersInv.step (h : CallersInv core2node c setup e)
    (hd : Exchange.Disciplined (c.Calls core2node))
    (hasks : ∀ t op, act = .call t op → ∃ q, op.ask core2node c = .ok q)
    (hs : CallStep core2node c setup e act e') : CallersInv core2node c setup e' := by
  cases hs with
  | ask t op q wire hask hwire =>
      have hsub := Exchange.delivered_of_step hwire
      have hbegins : Exchange.Begins (c.Calls core2node) e.wire (.begin t q.job) :=
        calls_of_ask hask
      refine ⟨h.wire.step hd hbegins hwire, fun t' j hj => ?_,
        fun r hr => (h.returned r hr).mono hsub⟩
      cases hwire with
      | begin _ _ hidle =>
          by_cases heq : t' = t
          · subst heq
            simp only [Function.update_self, Exchange.Phase.job, Option.some.injEq] at hj
            exact ⟨op, q, by simp, hask, hj⟩
          · simp only [Function.update_of_ne heq] at hj ⊢
            exact h.busy t' j hj
  | unasked t op code hidle hask =>
      obtain ⟨q, hq⟩ := hasks t op rfl
      rw [hask] at hq
      cases hq
  | work act wire hact hwire =>
      have hbegins : Exchange.Begins (c.Calls core2node) e.wire act := by
        cases act with
        | begin t j => exact hact.elim
        | lock | send | serve | receive | unlock => trivial
      refine ⟨h.wire.step hd hbegins hwire, fun t j hj => ?_,
        fun r hr => (h.returned r hr).mono (Exchange.delivered_of_step hwire)⟩
      rw [Exchange.job_of_step hact hwire t] at hj
      exact h.busy t j hj
  | unlock t id j op d wire hop ht hmem hcall hwire =>
      have hsub := Exchange.delivered_of_step hwire
      have hbegins : Exchange.Begins (c.Calls core2node) e.wire (.unlock t) := trivial
      refine ⟨h.wire.step hd hbegins hwire, fun t' j' hj => ?_,
        fun r hr => ?_⟩
      · cases hwire with
        | unlock _ _ _ _ =>
            by_cases heq : t' = t
            · subst heq
              simp [Exchange.Phase.job] at hj
            · simp only [Function.update_of_ne heq] at hj ⊢
              exact h.busy t' j' hj
      · rcases List.mem_cons.mp hr with rfl | hold
        · exact (own_of_received h hop ht hmem hcall).mono hsub
        · exact (h.returned r hold).mono hsub

/-- With the global connection open, the calls that ask are those of `Asks`. -/
theorem ask_iff_asks (ht : TableSound s) {cpu : Fin n} (h0 : 0 ≤ s.client.cpuSockets cpu)
    (hglobal : s.client.globalSocket = s.client.cpuSockets cpu) (op : ClientOp n) :
    (∃ q, op.ask core2node s.client = .ok q) ↔ s.client.Asks op := by
  have hopen : s.client.cpuSocketsOpen ≠ 0 := by
    have hmem : cpu ∈ s.client.openEntries := by simpa [Client.openEntries] using h0
    have hcard := Finset.card_pos.mpr ⟨cpu, hmem⟩
    rw [ht.count]
    omega
  have hconnection : ∀ cpu', (s.client.connection cpu').1 ≠ -1 := by
    intro cpu'
    rcases connection_lock s.client cpu' with ⟨hown, heq, _⟩ | heq
    · rw [heq]
      exact fun hneg => by omega
    · rw [heq, hglobal]
      exact fun hneg => by omega
  cases op with
  | init | finalize => exact iff_of_false (by rintro ⟨_, h⟩; cases h) (fun h => h)
  | read dev cpu' reg =>
      exact iff_of_true ⟨_, (if_neg hopen).trans (if_pos (hconnection cpu'))⟩ trivial
  | write dev cpu' reg data =>
      exact iff_of_true ⟨_, (if_neg hopen).trans (if_pos (hconnection cpu'))⟩ trivial
  | check dev cpu' =>
      unfold ClientOp.ask Client.checkRequest Client.Asks
      dsimp only
      split
      · next hasked => exact iff_of_true ⟨_, rfl⟩ hasked
      · next hnot => exact iff_of_false (by rintro ⟨_, h⟩; cases h) hnot

omit [DecidableEq τ] in
theorem onOpen_of_inv {e : Exchange.State τ Int (AccessLock n) AccessDataRecord
      AccessDataRecord Daemon}
    (ht : TableSound s) (hg : GlobalOpen s)
    (h : Exchange.Inv (s.client.Calls core2node) (DaemonServes setup) e) {k : Int}
    (hk : e.toServer k ≠ []) : k ∈ s.openFds := by
  rcases h.traffic k with ⟨hnone, _⟩ | ⟨t, id, j, hsent, rfl, _⟩
  · exact absurd hnone hk
  · obtain ⟨op, q, hq, rfl⟩ := h.jobs t j (by rw [hsent]; rfl)
    have hsends : s.sendsOn core2node op = some q.socket := by
      cases op with
      | init | finalize => cases hq
      | read | write | check => exact congrArg (Option.map (·.socket)) hq
    exact sendsOn_mem ht hg hsends

/-- A thread in a call, or the daemon it waits for, can go on. -/
theorem live_of_inv (h : CallersInv core2node c setup e) {t : τ} (ht : e.wire.phase t ≠ .idle) :
    (∃ act e', CallStep core2node c setup e (.work act) e') ∨
      ∃ k, Exchange.Unanswered (DaemonServes setup) e.wire k := by
  rcases Exchange.progress h.wire ht with ⟨act, wire, hworks, hs⟩ | hstuck
  · refine Or.inl ?_
    cases hact : act with
    | begin t' j =>
        subst hact
        exact hworks.elim
    | unlock t' =>
        subst hact
        cases hs with
        | unlock _ id j hphase =>
            obtain ⟨op, q, hop, _⟩ := h.busy t' j (by rw [hphase]; rfl)
            obtain ⟨d, hd, hcall, _⟩ := h.wire.got t' id j hphase
            exact ⟨_, _, .unlock t' id j op d _ hop hphase hd hcall (.unlock t' id j hphase)⟩
    | lock | send | serve | receive =>
        exact ⟨_, _, .work act wire (by rw [hact]; trivial) hs⟩
  · exact Or.inr hstuck

theorem ends_of_inv [Fintype τ] (h : CallersInv core2node c setup e)
    (hd : Exchange.Disciplined (c.Calls core2node))
    {act : Exchange.Act τ Int (AccessLock n) AccessDataRecord}
    (hs : CallStep core2node c setup e (.work act) e') :
    ∑ t, Exchange.remaining e'.wire t < ∑ t, Exchange.remaining e.wire t := by
  cases hs with
  | work _ wire hact hwire =>
      have hworks : act.Works := by
        cases act with
        | begin t j => exact hact.elim
        | lock | send | serve | receive | unlock => trivial
      exact Exchange.sum_remaining_step h.wire hd hworks hwire
  | unlock t id j op d wire hop ht hmem hcall hwire =>
      have hworks : Exchange.Act.Works
          (.unlock t : Exchange.Act τ Int (AccessLock n) AccessDataRecord) := trivial
      exact Exchange.sum_remaining_step h.wire hd hworks hwire

theorem ownReplies_of_inv [Fintype τ] (ht : TableSound s) (hg : GlobalOpen s)
    (h : CallersInv core2node s.client setup e) : OwnReplies core2node s setup e where
  returned := h.returned
  delivered := h.wire.toDelivered
  onOpen _ hk := onOpen_of_inv ht hg h.wire hk
  live _ hphase := live_of_inv h hphase
  ends _ _ hs := ends_of_inv h (calls_disciplined ht) hs

end Run

/-- **Every call receives the daemon's reply to its own request**, in any
interleaving of the calls of any number of threads, as long as they ask for one,
and no longer. -/
theorem ownReplies_of_run [Fintype τ] [DecidableEq τ]
    {guard : Session n → ClientOp n → Prop} (hrun : ClientRun guard s)
    (hglobal : ∃ cpu, 0 ≤ s.client.cpuSockets cpu ∧
      s.client.globalSocket = s.client.cpuSockets cpu)
    {setup : Int → DaemonSetup} {daemons : Int → Daemon} {e : Callers τ n}
    (h : Run (CallStep core2node s.client setup) (Asking s.client) (.start daemons) e) :
    OwnReplies core2node s setup e ∧
      ∀ t op e', CallStep core2node s.client setup e (.call t op) e' →
        (OwnReplies core2node s setup e' ↔ s.client.Asks op) := by
  have htable := tableSound_of_run hrun
  obtain ⟨cpu, h0, hglobal⟩ := hglobal
  have hasks : ∀ op : ClientOp n, (∃ q, op.ask core2node s.client = .ok q) ↔ s.client.Asks op :=
    ask_iff_asks htable h0 hglobal
  have hopen : GlobalOpen s := Or.inr ⟨cpu, h0, hglobal⟩
  have hstep : ∀ e e' : Callers τ n, ∀ act, CallersInv core2node s.client setup e →
      Asking s.client e act → CallStep core2node s.client setup e act e' →
      CallersInv core2node s.client setup e' := by
    intro e e' act hinv hguard hs
    refine hinv.step (calls_disciplined htable) (fun t op hact => ?_) hs
    subst hact
    have hop : s.client.Asks op := hguard
    exact (hasks op).mpr hop
  have hinv := h.invariant callersInv_start fun e act e' hinv hguard hs =>
    hstep e e' act hinv hguard hs
  refine ⟨ownReplies_of_inv htable hopen hinv, fun t op e' hs => ⟨fun hown => ?_, fun hguard =>
    ownReplies_of_inv htable hopen (hstep e e' (.call t op) hinv hguard hs)⟩⟩
  cases hs with
  | ask _ _ q wire hask hwire => exact (hasks op).mp ⟨q, hask⟩
  | unasked _ _ code hidle hask =>
      -- the call that returned unasked has no reply
      obtain ⟨q, d, hask', _⟩ := hown.returned _ List.mem_cons_self
      have hno : op.ask core2node s.client = .ok q := hask'
      rw [hask] at hno
      cases hno

/-- A daemon that found no device file. -/
def Daemon.bare : Daemon where
  fdMsr _ := .failed
  fdPci _ _ := .absent

def DaemonSetup.bare : DaemonSetup where
  allowed _ := false
  allowedPci := none
  socketBus _ := none
  pciDevicesDaemon := none

/-- A write to the first fixed counter of CPU 2, on the connection of CPU 0. -/
def fixedWrite : Request maxNumThreads where
  socket := 3
  lock := .globalLock
  record := { cpu := 2, reg := 0x309, device := msrDev, type := .daemonWrite, data := 5 }

/-- CPUs 2 and 5 share the global connection: the thread on the first has written
and returned, with the error of the daemon, the one on the second waits. -/
theorem ownReplies_of_run_two : ∃ e : Callers (Fin 2) maxNumThreads,
    e.returned.map (·.value) = [(-enodev, 0)] ∧ e.call 1 = some (.read msrDev 5 0x309) ∧
      OwnReplies id twoConnections (fun _ => DaemonSetup.bare) e ∧
        ∀ t op e', CallStep id twoConnections.client (fun _ => DaemonSetup.bare) e (.call t op) e' →
          (OwnReplies id twoConnections (fun _ => DaemonSetup.bare) e' ↔
            twoConnections.client.Asks op) := by
  have h1 : Run (CallStep id twoConnections.client fun _ => DaemonSetup.bare)
      (Asking twoConnections.client) (.start fun _ => Daemon.bare)
      (.start fun _ => Daemon.bare : Callers (Fin 2) maxNumThreads) := .nil
  have h2 := h1.snoc (i := CallAct.call 0 (.write msrDev 2 0x309 5)) trivial
    (.ask 0 _ fixedWrite _ rfl (.begin 0 fixedWrite.job rfl))
  have h3 := h2.snoc (i := CallAct.call 1 (.read msrDev 5 0x309)) trivial
    (.ask 1 _ _ _ rfl (.begin 1 _ rfl))
  have h4 := h3.snoc (i := CallAct.work (.lock 0)) trivial
    (.work _ _ trivial (.lock 0 0 fixedWrite.job rfl rfl))
  have h5 := h4.snoc (i := CallAct.work (.send 0)) trivial
    (.work _ _ trivial (.send 0 0 fixedWrite.job rfl))
  have h6 := h5.snoc (i := CallAct.work (.serve 3)) trivial
    (.work _ _ trivial (.serve 3 0 fixedWrite.record []
      { fixedWrite.record with errorcode := .noDev, data := 0 } Daemon.bare rfl
      ⟨⟨fun _ => false, fun _ _ _ => none, fun _ _ _ _ => false, fun _ _ => 0, 0⟩, rfl⟩))
  have h7 := h6.snoc (i := CallAct.work (.receive 0)) trivial
    (.work _ _ trivial (.receive 0 0 fixedWrite.job 0 _ [] rfl rfl))
  have h8 := h7.snoc (i := CallAct.work (.unlock 0)) trivial
    (.unlock 0 0 fixedWrite.job _ _ _ rfl rfl List.mem_cons_self rfl
      (.unlock 0 0 fixedWrite.job rfl))
  have hrun : ClientRun (fun _ _ => True) twoConnections := twoConnections_run fun _ _ _ => trivial
  exact ⟨_, rfl, rfl, ownReplies_of_run hrun ⟨0, by decide⟩ h8⟩

/-- With two connections the check of CPU 2, which has none, returns `0` unasked. -/
theorem not_ownReplies_two : ∃ e : Callers (Fin 1) maxNumThreads,
    Run (CallStep id twoConnections.client fun _ => DaemonSetup.bare) (fun _ _ => True)
      (.start fun _ => Daemon.bare) e ∧
    ¬OwnReplies id twoConnections (fun _ => DaemonSetup.bare) e := by
  have h1 : Run (CallStep id twoConnections.client fun _ => DaemonSetup.bare) (fun _ _ => True)
      (.start fun _ => Daemon.bare)
      (.start fun _ => Daemon.bare : Callers (Fin 1) maxNumThreads) := .nil
  refine ⟨_, h1.snoc (i := CallAct.call 0 (.check msrDev 2)) trivial (.unasked 0 _ 0 rfl rfl),
    fun h => ?_⟩
  obtain ⟨q, d, hask, _⟩ := h.returned _ List.mem_cons_self
  have hno : ClientOp.ask id twoConnections.client (.check msrDev 2) = .ok q := hask
  cases hno

end Likwid
