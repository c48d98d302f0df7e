import Likwid.Access
import Likwid.AccessDaemon
import Likwid.Lib.Run
import Mathlib.Data.Finset.Card
import Mathlib.Data.Fintype.Basic

/-!
# The client of the access daemon

Every CPU may have a connection to a daemon of its own; the connection opened
first also serves the CPUs that have none, as `globalSocket`. As
`access_client_finalize` closes the connection of its CPU and resets
`globalSocket` only with the last one, the role is not handed over: the table
stays sound exactly as long as the connection in that role is closed last
(`socketsSound_of_run`).
-/

namespace Likwid

abbrev eperm : Int := 1
abbrev enxio : Int := 6
abbrev ebusy : Int := 16
abbrev ebadfd : Int := 77

variable {n : ℕ}

/-! ## The calls -/

/-- The variables of the module; the table has `MAX_NUM_THREADS` entries. -/
structure Client (n : ℕ) where
  globalSocket : Int := -1
  cpuSocketsOpen : Int := 0
  cpuSockets : Fin n → Int := fun _ => -1

inductive AccessLock (n : ℕ) where
  | globalLock
  | cpuLocks (cpu : Fin n)
deriving DecidableEq

/-- What a call sends, on which descriptor and under which lock. -/
structure Request (n : ℕ) where
  socket : Int
  lock : AccessLock n
  record : AccessDataRecord
deriving DecidableEq

def accessClientErrno : AccessErrorType → Int
  | .noError => 0
  | .unknown => -efault
  | .restReg => -eperm
  | .openFail => -enxio
  | .rwFail => -eio
  | .daemonBusy => -ebusy
  | .noDev => -enodev

/-- `fd` is what `access_client_startDaemon` returns; where it fails the process
exits. -/
def Client.accessClientInit (c : Client n) (cpu : Fin n) (fd : Int) : Client n :=
  if c.cpuSockets cpu < 0 then
    { c with
      cpuSockets := Function.update c.cpuSockets cpu fd
      cpuSocketsOpen := c.cpuSocketsOpen + 1
      globalSocket := if c.globalSocket = -1 then fd else c.globalSocket }
  else c

/-- The new variables and the descriptor that is sent a `DAEMON_EXIT` and
closed. -/
def Client.accessClientFinalize (c : Client n) (cpu : Fin n) : Client n × Option Int :=
  let (c', closed) :=
    if 0 < c.cpuSockets cpu then
      ({ c with
          cpuSockets := Function.update c.cpuSockets cpu (-1)
          cpuSocketsOpen := c.cpuSocketsOpen - 1 }, some (c.cpuSockets cpu))
    else (c, none)
  (if c'.cpuSocketsOpen = 0 then { c' with globalSocket := -1 } else c', closed)

section Requests

variable (c : Client n) (core2node : ℕ → ℕ)

/-- The connection `access_client_read` and `access_client_write` choose. -/
def Client.connection (cpu : Fin n) : Int × AccessLock n :=
  if 0 ≤ c.cpuSockets cpu ∧ c.cpuSockets cpu ≠ c.globalSocket then
    (c.cpuSockets cpu, .cpuLocks cpu)
  else (c.globalSocket, .globalLock)

/-- A PCI device is addressed by the socket of the CPU. -/
def recordFor (dev : PciDeviceIndex) (cpu : ℕ) (type : AccessType) : AccessDataRecord :=
  { cpu := if dev ≠ msrDev then core2node cpu else cpu, device := dev, type := type }

/-- `access_client_read` up to `pthread_mutex_lock`: an error code, or the
request. -/
def Client.readRequest (dev : PciDeviceIndex) (cpu : Fin n) (reg : ℕ) : Except Int (Request n) :=
  if c.cpuSocketsOpen = 0 then .error (-enoent)
  else if (c.connection cpu).1 ≠ -1 then
    .ok { socket := (c.connection cpu).1
          lock := (c.connection cpu).2
          record := { recordFor core2node dev cpu .daemonRead with reg := reg, data := 0 } }
  else .error (-ebadfd)

def Client.writeRequest (dev : PciDeviceIndex) (cpu : Fin n) (reg : ℕ) (data : Word) :
    Except Int (Request n) :=
  if c.cpuSocketsOpen = 0 then .error (-enoent)
  else if (c.connection cpu).1 ≠ -1 then
    .ok { socket := (c.connection cpu).1
          lock := (c.connection cpu).2
          record := { recordFor core2node dev cpu .daemonWrite with reg := reg, data := data } }
  else .error (-ebadfd)

/-- The tests of `access_client_check` leave out descriptor `0`. -/
def Client.checkRequest (dev : PciDeviceIndex) (cpu : Fin n) : Except Int (Request n) :=
  let (socket, lock) :=
    if 0 < c.cpuSockets cpu ∧ c.cpuSockets cpu ≠ c.globalSocket then
      (c.cpuSockets cpu, AccessLock.cpuLocks cpu)
    else (c.globalSocket, .globalLock)
  if 0 < c.cpuSockets cpu ∨ c.cpuSocketsOpen = 1 ∧ 0 < c.globalSocket then
    .ok { socket := socket, lock := lock, record := recordFor core2node dev cpu .daemonCheck }
  else .error 0

end Requests

/-- The code and `*data` that `access_client_read` makes of a reply. -/
def readResult (reply : AccessDataRecord) : Int × Word :=
  if reply.errorcode = .noError then (0, reply.data) else (accessClientErrno reply.errorcode, 0)

def writeResult (reply : AccessDataRecord) : Int := accessClientErrno reply.errorcode

def checkResult (reply : AccessDataRecord) : Int := if reply.errorcode = .noError then 1 else 0

/-! ## Sequences of calls -/

/-- A call; `fd` is the descriptor the kernel hands out. -/
inductive ClientOp (n : ℕ) where
  | init (cpu : Fin n) (fd : Int)
  | finalize (cpu : Fin n)
  | read (dev : PciDeviceIndex) (cpu : Fin n) (reg : ℕ)
  | write (dev : PciDeviceIndex) (cpu : Fin n) (reg : ℕ) (data : Word)
  | check (dev : PciDeviceIndex) (cpu : Fin n)

/-- The client and the descriptors of connections that are open. -/
structure Session (n : ℕ) where
  client : Client n := {}
  openFds : Finset Int := ∅

/-- The request a call sends. -/
def ClientOp.request (core2node : ℕ → ℕ) (c : Client n) : ClientOp n → Option (Request n)
  | .read dev cpu reg => (c.readRequest core2node dev cpu reg).toOption
  | .write dev cpu reg data => (c.writeRequest core2node dev cpu reg data).toOption
  | .check dev cpu => (c.checkRequest core2node dev cpu).toOption
  | .init _ _ => none
  | .finalize _ => none

/-- The code that a call returns at once, or its request. -/
def ClientOp.ask (core2node : ℕ → ℕ) (c : Client n) : ClientOp n → Except Int (Request n)
  | .read dev cpu reg => c.readRequest core2node dev cpu reg
  | .write dev cpu reg data => c.writeRequest core2node dev cpu reg data
  | .check dev cpu => c.checkRequest core2node dev cpu
  | .init _ _ => .error 0
  | .finalize _ => .error 0

theorem ClientOp.request_eq_ask (core2node : ℕ → ℕ) (c : Client n) (op : ClientOp n) :
    op.request core2node c = (op.ask core2node c).toOption := by
  cases op <;> rfl

/-- The code and `*data` that a call makes of the reply. -/
def ClientOp.result (reply : AccessDataRecord) : ClientOp n → Int × Word
  | .read _ _ _ => readResult reply
  | .write _ _ _ _ => (writeResult reply, 0)
  | .check _ _ => (checkResult reply, 0)
  | .init _ _ => (0, 0)
  | .finalize _ => (0, 0)

/-- The descriptor a call writes to: that of its request, or in
`access_client_finalize` the one it closes. -/
def Session.sendsOn (core2node : ℕ → ℕ) (s : Session n) : ClientOp n → Option Int
  | .finalize cpu => (s.client.accessClientFinalize cpu).2
  | op => (op.request core2node s.client).map (·.socket)

def Session.init (s : Session n) (cpu : Fin n) (fd : Int) : Session n where
  client := s.client.accessClientInit cpu fd
  openFds := if s.client.cpuSockets cpu < 0 then insert fd s.openFds else s.openFds

def Session.finalize (s : Session n) (cpu : Fin n) : Session n where
  client := (s.client.accessClientFinalize cpu).1
  openFds := (s.client.accessClientFinalize cpu).2.elim s.openFds s.openFds.erase

/-- A call: a new connection gets a descriptor that is not open. -/
inductive ClientStep (s : Session n) : ClientOp n → Session n → Prop
  | init (cpu : Fin n) (fd : Int)
      (hfd : s.client.cpuSockets cpu < 0 → 0 ≤ fd ∧ fd ∉ s.openFds) :
      ClientStep s (.init cpu fd) (s.init cpu fd)
  | finalize (cpu : Fin n) : ClientStep s (.finalize cpu) (s.finalize cpu)
  | read (dev : PciDeviceIndex) (cpu : Fin n) (reg : ℕ) : ClientStep s (.read dev cpu reg) s
  | write (dev : PciDeviceIndex) (cpu : Fin n) (reg : ℕ) (data : Word) :
      ClientStep s (.write dev cpu reg data) s
  | check (dev : PciDeviceIndex) (cpu : Fin n) : ClientStep s (.check dev cpu) s

/-- The entries that hold a descriptor. -/
def Client.openEntries (c : Client n) : Finset (Fin n) := {cpu | 0 ≤ c.cpuSockets cpu}

/-- **The socket table.** -/
structure SocketsSound (core2node : ℕ → ℕ) (s : Session n) : Prop where
  global : s.client.globalSocket = -1 ∨ ∃ cpu, 0 ≤ s.client.cpuSockets cpu ∧
    s.client.cpuSockets cpu ∈ s.openFds ∧ s.client.globalSocket = s.client.cpuSockets cpu
  count : s.client.cpuSocketsOpen = s.client.openEntries.card
  sends : ∀ op fd, s.sendsOn core2node op = some fd → fd ∈ s.openFds

/-- `access_client_finalize` closes the connection that is the global one only as
the last. -/
def GlobalLast (s : Session n) : ClientOp n → Prop
  | .finalize cpu => 0 < s.client.cpuSockets cpu →
      s.client.cpuSockets cpu = s.client.globalSocket → s.client.cpuSocketsOpen = 1
  | _ => True

/-! ## The table over a run -/

variable {core2node : ℕ → ℕ} {c : Client n} {s s' : Session n} {cpu : Fin n} {fd : Int}

/-- What holds of the table after any calls: an entry is `-1` or an open
descriptor, no two entries hold the same, and they are counted. -/
structure TableSound (s : Session n) : Prop where
  entry : ∀ cpu, s.client.cpuSockets cpu = -1 ∨
    0 ≤ s.client.cpuSockets cpu ∧ s.client.cpuSockets cpu ∈ s.openFds
  distinct : ∀ cpu cpu', 0 ≤ s.client.cpuSockets cpu →
    s.client.cpuSockets cpu = s.client.cpuSockets cpu' → cpu = cpu'
  count : s.client.cpuSocketsOpen = s.client.openEntries.card

theorem tableSound_boot : TableSound ({} : Session n) where
  entry _ := Or.inl rfl
  distinct _ _ h _ := by cases h
  count := by
    have hnone : (({} : Session n).client.openEntries) = ∅ := by
      ext cpu
      simp [Client.openEntries]
    rw [hnone]
    rfl

theorem openEntries_update {c' : Client n}
    (h : c'.cpuSockets = Function.update c.cpuSockets cpu fd) :
    c'.openEntries = if 0 ≤ fd then insert cpu c.openEntries else c.openEntries.erase cpu := by
  ext i
  by_cases hi : i = cpu
  · subst hi
    split <;> simp_all [Client.openEntries]
  · split <;> simp [Client.openEntries, hi, h]

theorem init_of_neg (hneg : s.client.cpuSockets cpu < 0) : s.init cpu fd =
    { client :=
        { cpuSockets := Function.update s.client.cpuSockets cpu fd
          cpuSocketsOpen := s.client.cpuSocketsOpen + 1
          globalSocket := if s.client.globalSocket = -1 then fd else s.client.globalSocket }
      openFds := insert fd s.openFds } := by
  unfold Session.init Client.accessClientInit
  rw [if_pos hneg, if_pos hneg]

theorem init_of_not_neg (hneg : ¬s.client.cpuSockets cpu < 0) : s.init cpu fd = s := by
  unfold Session.init Client.accessClientInit
  rw [if_neg hneg, if_neg hneg]

theorem accessClientFinalize_of_pos (hpos : 0 < c.cpuSockets cpu) :
    c.accessClientFinalize cpu =
      ({ cpuSockets := Function.update c.cpuSockets cpu (-1)
         cpuSocketsOpen := c.cpuSocketsOpen - 1
         globalSocket := if c.cpuSocketsOpen - 1 = 0 then -1 else c.globalSocket },
        some (c.cpuSockets cpu)) := by
  unfold Client.accessClientFinalize
  rw [if_pos hpos]
  dsimp only
  split <;> rfl

theorem accessClientFinalize_of_not_pos (hpos : ¬0 < c.cpuSockets cpu) :
    c.accessClientFinalize cpu =
      ({ c with globalSocket := if c.cpuSocketsOpen = 0 then -1 else c.globalSocket }, none) := by
  unfold Client.accessClientFinalize
  rw [if_neg hpos]
  dsimp only
  split <;> rfl

theorem finalize_of_pos (hpos : 0 < s.client.cpuSockets cpu) : s.finalize cpu =
    { client :=
        { cpuSockets := Function.update s.client.cpuSockets cpu (-1)
          cpuSocketsOpen := s.client.cpuSocketsOpen - 1
          globalSocket :=
            if s.client.cpuSocketsOpen - 1 = 0 then -1 else s.client.globalSocket }
      openFds := s.openFds.erase (s.client.cpuSockets cpu) } := by
  unfold Session.finalize
  rw [accessClientFinalize_of_pos hpos]
  rfl

theorem finalize_of_not_pos (hpos : ¬0 < s.client.cpuSockets cpu) : s.finalize cpu =
    { s with client := { s.client with
        globalSocket := if s.client.cpuSocketsOpen = 0 then -1 else s.client.globalSocket } } := by
  unfold Session.finalize
  rw [accessClientFinalize_of_not_pos hpos]
  rfl

theorem TableSound.init (h : TableSound s) (hneg : s.client.cpuSockets cpu < 0)
    (hfd : 0 ≤ fd) (hnew : fd ∉ s.openFds) : TableSound (s.init cpu fd) := by
  have hout : cpu ∉ s.client.openEntries := by
    simp [Client.openEntries, hneg]
  rw [init_of_neg hneg]
  refine ⟨fun i => ?_, fun i j hi hij => ?_, ?_⟩
  · by_cases hi : i = cpu
    · subst hi
      exact Or.inr (by simp [hfd])
    · rcases h.entry i with he | ⟨h0, hmem⟩
      · exact Or.inl (by simp [hi, he])
      · exact Or.inr (by simp [hi, h0, hmem])
  · -- an entry that holds a descriptor open before cannot hold the new one
    have hold : ∀ k, k ≠ cpu → s.client.cpuSockets k = fd → False := by
      intro k _ hk
      rcases h.entry k with he | ⟨_, hmem⟩
      · omega
      · exact hnew (hk ▸ hmem)
    by_cases hic : i = cpu
    · by_cases hjc : j = cpu
      · rw [hic, hjc]
      · simp only [hic, Function.update_self, Function.update_of_ne hjc] at hij
        exact (hold j hjc hij.symm).elim
    · by_cases hjc : j = cpu
      · simp only [hjc, Function.update_self, Function.update_of_ne hic] at hij
        exact (hold i hic hij).elim
      · simp only [Function.update_of_ne hic, Function.update_of_ne hjc] at hi hij
        exact h.distinct i j hi hij
  · dsimp only
    rw [openEntries_update rfl, if_pos hfd, Finset.card_insert_of_notMem hout, h.count]
    push_cast
    rfl

theorem TableSound.finalize (h : TableSound s) (hpos : 0 < s.client.cpuSockets cpu) :
    TableSound (s.finalize cpu) := by
  have hin : cpu ∈ s.client.openEntries := by
    simp only [Client.openEntries, Finset.mem_filter, Finset.mem_univ, true_and]
    omega
  rw [finalize_of_pos hpos]
  refine ⟨fun i => ?_, fun i j hi hij => ?_, ?_⟩
  · by_cases hi : i = cpu
    · subst hi
      exact Or.inl (by simp)
    · rcases h.entry i with he | ⟨h0, hmem⟩
      · exact Or.inl (by simp [hi, he])
      · have hne : s.client.cpuSockets i ≠ s.client.cpuSockets cpu := by
          intro heq
          exact hi (h.distinct i cpu h0 heq)
        exact Or.inr (by simp [hi, h0, hmem, hne])
  · have hic : i ≠ cpu := by
      rintro rfl
      simp at hi
    have hjc : j ≠ cpu := by
      rintro rfl
      simp only [Function.update_of_ne hic, Function.update_self] at hi hij
      omega
    simp only [Function.update_of_ne hic, Function.update_of_ne hjc] at hi hij
    exact h.distinct i j hi hij
  · have hcard : (s.client.openEntries.erase cpu).card = s.client.openEntries.card - 1 :=
      Finset.card_erase_of_mem hin
    have hone : 0 < s.client.openEntries.card := Finset.card_pos.mpr ⟨cpu, hin⟩
    dsimp only
    rw [openEntries_update rfl, if_neg (by decide), hcard, h.count]
    omega

theorem TableSound.global (h : TableSound s) (g : Int) :
    TableSound { s with client := { s.client with globalSocket := g } } :=
  ⟨h.entry, h.distinct, h.count⟩

theorem tableSound_step {op : ClientOp n} (h : TableSound s) (hs : ClientStep s op s') :
    TableSound s' := by
  cases hs with
  | init cpu fd hfd =>
      by_cases hneg : s.client.cpuSockets cpu < 0
      · exact h.init hneg (hfd hneg).1 (hfd hneg).2
      · rw [init_of_not_neg hneg]
        exact h
  | finalize cpu =>
      by_cases hpos : 0 < s.client.cpuSockets cpu
      · exact h.finalize hpos
      · rw [finalize_of_not_pos hpos]
        exact h.global _
  | read | write | check => exact h

/-! ## The global connection -/

/-- The first part, the only one that can fail. -/
def GlobalOpen (s : Session n) : Prop :=
  s.client.globalSocket = -1 ∨
    ∃ cpu, 0 ≤ s.client.cpuSockets cpu ∧ s.client.globalSocket = s.client.cpuSockets cpu

theorem TableSound.mem_openFds (h : TableSound s) (h0 : 0 ≤ s.client.cpuSockets cpu) :
    s.client.cpuSockets cpu ∈ s.openFds := by
  rcases h.entry cpu with hnone | ⟨_, hmem⟩
  · omega
  · exact hmem

theorem GlobalOpen.mem_openFds (h : TableSound s) (hg : GlobalOpen s)
    (hne : s.client.globalSocket ≠ -1) : s.client.globalSocket ∈ s.openFds := by
  rcases hg with hnone | ⟨cpu, h0, heq⟩
  · exact absurd hnone hne
  · exact heq ▸ h.mem_openFds h0

theorem connection_mem (h : TableSound s) (hg : GlobalOpen s)
    (hne : (s.client.connection cpu).1 ≠ -1) : (s.client.connection cpu).1 ∈ s.openFds := by
  unfold Client.connection at hne ⊢
  split at hne
  · next hown =>
      rw [if_pos hown]
      exact h.mem_openFds hown.1
  · next hown =>
      rw [if_neg hown]
      exact hg.mem_openFds h hne

theorem readRequest_socket {dev : PciDeviceIndex} {reg : ℕ} {q : Request n}
    (hq : (c.readRequest core2node dev cpu reg).toOption = some q) :
    q.socket = (c.connection cpu).1 ∧ q.lock = (c.connection cpu).2 ∧ q.socket ≠ -1 := by
  unfold Client.readRequest at hq
  split at hq
  · cases hq
  · split at hq
    · next hne =>
        obtain rfl := Option.some.inj hq
        exact ⟨rfl, rfl, hne⟩
    · cases hq

theorem writeRequest_socket {dev : PciDeviceIndex} {reg : ℕ} {data : Word} {q : Request n}
    (hq : (c.writeRequest core2node dev cpu reg data).toOption = some q) :
    q.socket = (c.connection cpu).1 ∧ q.lock = (c.connection cpu).2 ∧ q.socket ≠ -1 := by
  unfold Client.writeRequest at hq
  split at hq
  · cases hq
  · split at hq
    · next hne =>
        obtain rfl := Option.some.inj hq
        exact ⟨rfl, rfl, hne⟩
    · cases hq

/-- `access_client_check` sends on the connection of the CPU or on the global
one. -/
theorem checkRequest_socket {dev : PciDeviceIndex} {q : Request n}
    (hq : (c.checkRequest core2node dev cpu).toOption = some q) :
    q.socket = c.cpuSockets cpu ∧ q.lock = .cpuLocks cpu ∧ 0 < q.socket ∧
        q.socket ≠ c.globalSocket ∨
      q.socket = c.globalSocket ∧ q.lock = .globalLock ∧ 0 < q.socket := by
  unfold Client.checkRequest at hq
  dsimp only at hq
  split at hq
  · next hsend =>
      obtain rfl := Option.some.inj hq
      by_cases hown : 0 < c.cpuSockets cpu ∧ c.cpuSockets cpu ≠ c.globalSocket
      · simp only [if_pos hown]
        exact Or.inl ⟨trivial, trivial, hown⟩
      · simp only [if_neg hown]
        refine Or.inr ⟨trivial, trivial, ?_⟩
        rcases hsend with hpos | ⟨_, hpos⟩
        · by_contra hglobal
          exact hown ⟨hpos, by omega⟩
        · exact hpos
  · cases hq

/-- With the global connection open, every call sends on an open descriptor. -/
theorem sendsOn_mem {op : ClientOp n} (h : TableSound s) (hg : GlobalOpen s)
    (hfd : s.sendsOn core2node op = some fd) : fd ∈ s.openFds := by
  cases op with
  | init cpu fd' => cases hfd
  | finalize cpu =>
      change (s.client.accessClientFinalize cpu).2 = some fd at hfd
      by_cases hpos : 0 < s.client.cpuSockets cpu
      · rw [accessClientFinalize_of_pos hpos] at hfd
        obtain rfl := Option.some.inj hfd
        exact h.mem_openFds hpos.le
      · rw [accessClientFinalize_of_not_pos hpos] at hfd
        cases hfd
  | read dev cpu reg =>
      obtain ⟨q, hq, rfl⟩ := Option.map_eq_some_iff.mp hfd
      obtain ⟨heq, _, hne⟩ := readRequest_socket hq
      exact heq ▸ connection_mem h hg (heq ▸ hne)
  | write dev cpu reg data =>
      obtain ⟨q, hq, rfl⟩ := Option.map_eq_some_iff.mp hfd
      obtain ⟨heq, _, hne⟩ := writeRequest_socket hq
      exact heq ▸ connection_mem h hg (heq ▸ hne)
  | check dev cpu =>
      obtain ⟨q, hq, rfl⟩ := Option.map_eq_some_iff.mp hfd
      rcases checkRequest_socket hq with ⟨heq, _, hpos, _⟩ | ⟨heq, _, hpos⟩
      · exact heq ▸ h.mem_openFds (heq ▸ hpos.le)
      · exact heq ▸ hg.mem_openFds h (by omega)

theorem socketsSound_iff_globalOpen (h : TableSound s) :
    SocketsSound core2node s ↔ GlobalOpen s := by
  constructor
  · intro hs
    rcases hs.global with hnone | ⟨cpu, h0, _, heq⟩
    · exact Or.inl hnone
    · exact Or.inr ⟨cpu, h0, heq⟩
  · intro hg
    refine ⟨?_, h.count, fun op fd => sendsOn_mem h hg⟩
    rcases hg with hnone | ⟨cpu, h0, heq⟩
    · exact Or.inl hnone
    · exact Or.inr ⟨cpu, h0, h.mem_openFds h0, heq⟩

theorem GlobalOpen.init (hg : GlobalOpen s) (hneg : s.client.cpuSockets cpu < 0)
    (hfd : 0 ≤ fd) : GlobalOpen (s.init cpu fd) := by
  unfold GlobalOpen
  rw [init_of_neg hneg]
  rcases hg with hnone | ⟨i, h0, heq⟩
  · exact Or.inr ⟨cpu, by simp [hfd, hnone]⟩
  · have hi : i ≠ cpu := by
      rintro rfl
      omega
    refine Or.inr ⟨i, ?_, ?_⟩
    · simpa [hi] using h0
    · rw [if_neg (by omega)]
      simpa [hi] using heq

/-- Where `access_client_finalize` closes a connection, the global one is open
afterwards exactly if it is another one or this was the last. -/
theorem globalOpen_finalize (h : TableSound s) (hg : GlobalOpen s)
    (hpos : 0 < s.client.cpuSockets cpu) :
    GlobalOpen (s.finalize cpu) ↔ GlobalLast s (.finalize cpu) := by
  unfold GlobalOpen GlobalLast
  rw [finalize_of_pos hpos]
  dsimp only
  by_cases hlast : s.client.cpuSocketsOpen - 1 = 0
  · rw [if_pos hlast]
    exact ⟨fun _ _ _ => by omega, fun _ => Or.inl rfl⟩
  · rw [if_neg hlast]
    constructor
    · rintro (hnone | ⟨i, h0, heq⟩) _ hglobal
      · omega
      · -- no other entry holds the descriptor that is closed
        by_cases hi : i = cpu
        · subst hi
          simp at h0
        · simp only [Function.update_of_ne hi] at h0 heq
          exact absurd (h.distinct i cpu h0 (heq.symm.trans hglobal.symm)) hi
    · intro hguard
      rcases hg with hnone | ⟨i, h0, heq⟩
      · exact Or.inl hnone
      · have hi : i ≠ cpu := by
          rintro rfl
          have := hguard hpos heq.symm
          omega
        exact Or.inr ⟨i, by simpa [hi] using h0, by simpa [hi] using heq⟩

/-- One call: the table stays sound exactly if it closes the global connection
only as the last. -/
theorem globalOpen_step {op : ClientOp n} (h : TableSound s) (hg : GlobalOpen s)
    (hs : ClientStep s op s') : GlobalOpen s' ↔ GlobalLast s op := by
  cases hs with
  | init cpu fd hfd =>
      refine iff_of_true ?_ trivial
      by_cases hneg : s.client.cpuSockets cpu < 0
      · exact hg.init hneg (hfd hneg).1
      · rw [init_of_not_neg hneg]
        exact hg
  | finalize cpu =>
      by_cases hpos : 0 < s.client.cpuSockets cpu
      · exact globalOpen_finalize h hg hpos
      · refine iff_of_true ?_ fun hpos' => absurd hpos' hpos
        unfold GlobalOpen
        rw [finalize_of_not_pos hpos]
        dsimp only
        split
        · exact Or.inl rfl
        · exact hg
  | read | write | check => exact iff_of_true hg trivial

/-- Runs of calls, from the variables' initial values. -/
abbrev ClientRun (guard : Session n → ClientOp n → Prop) (s : Session n) : Prop :=
  Run ClientStep guard {} s

theorem tableSound_of_run {guard : Session n → ClientOp n → Prop} (h : ClientRun guard s) :
    TableSound s :=
  h.invariant tableSound_boot fun _ _ _ ht _ hs => tableSound_step ht hs

theorem globalOpen_of_run (h : ClientRun GlobalLast s) : TableSound s ∧ GlobalOpen s := by
  refine ⟨tableSound_of_run h, ?_⟩
  induction h with
  | nil => exact Or.inl rfl
  | snoc hrun hguard hs ih => exact (globalOpen_step (tableSound_of_run hrun) ih hs).mpr hguard

/-- **The socket table over a run** is sound as long as the global connection is
closed last, and no longer. -/
theorem socketsSound_of_run (h : ClientRun GlobalLast s) :
    SocketsSound core2node s ∧ ∀ op s', ClientStep s op s' →
      (SocketsSound core2node s' ↔ GlobalLast s op) := by
  obtain ⟨ht, hg⟩ := globalOpen_of_run h
  refine ⟨(socketsSound_iff_globalOpen ht).mpr hg, fun op s' hs => ?_⟩
  rw [socketsSound_iff_globalOpen (tableSound_step ht hs)]
  exact globalOpen_step ht hg hs

/-- The connections of two CPUs. -/
def twoConnections : Session maxNumThreads := (Session.init {} 0 3).init 1 4

theorem twoConnections_run {guard : Session maxNumThreads → ClientOp maxNumThreads → Prop}
    (h : ∀ s cpu fd, guard s (.init cpu fd)) : ClientRun guard twoConnections :=
  (Run.nil.snoc (h _ 0 3) (.init 0 3 fun _ => by decide)).snoc (h _ 1 4)
    (.init 1 4 fun _ => by decide)

/-- The second is closed. -/
theorem socketsSound_of_run_two :
    SocketsSound id (twoConnections.finalize 1) ∧
      ∀ op s', ClientStep (twoConnections.finalize 1) op s' →
        (SocketsSound id s' ↔ GlobalLast (twoConnections.finalize 1) op) :=
  socketsSound_of_run ((twoConnections_run fun _ _ _ => trivial).snoc
    (i := .finalize 1) (fun _ => by decide) (.finalize 1))

/-- The first is closed: `globalSocket` keeps its descriptor. -/
theorem not_socketsSound_two : ∃ s : Session maxNumThreads,
    ClientRun (fun _ _ => True) s ∧ ¬SocketsSound id s := by
  refine ⟨twoConnections.finalize 0, (twoConnections_run fun _ _ _ => trivial).snoc trivial
    (.finalize 0), fun h => ?_⟩
  rcases h.global with hnone | ⟨cpu, _, hmem, heq⟩
  · exact absurd hnone (by decide)
  · have hglobal : (twoConnections.finalize 0).client.globalSocket = 3 := by decide
    rw [← heq, hglobal] at hmem
    exact absurd hmem (by decide)

end Likwid
