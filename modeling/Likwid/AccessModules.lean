import Likwid.AccessX86
import Likwid.Lib.Total

/-!
# The access modules behind one interface

`access.c` calls the client of the daemon or the direct module through the
pointers `access_check`, `access_read` and `access_write`. A device that the
check finds is not always one that an access reaches: the module may answer it
with `-ENODEV`, or in no defined way (`serves_iff`).
-/

namespace Likwid

/-- Whose functions `access_init`, `access_read`, `access_write`,
`access_finalize` and `access_check` point to. -/
inductive AccessMode where
  | daemon
  | direct
deriving DecidableEq, Repr

/-- The access modules with their variables, and what the machine answers. -/
structure Modules where
  files : DeviceFiles
  numHWThreads : ℕ
  setup : DirectSetup
  direct : Direct
  client : Client maxNumThreads
  daemonSetup : Int → DaemonSetup
  daemons : Int → Daemon

/-- The call of the client for the access. -/
def RegAccess.op (a : RegAccess) (dev : PciDeviceIndex) (cpu : Fin maxNumThreads) (reg : ℕ) :
    ClientOp maxNumThreads :=
  match a with
  | .read => .read dev cpu reg
  | .write data => .write dev cpu reg data

namespace Modules

variable (E : Modules)

/-- What the daemon of a connection replies; nothing if it stops. -/
def reply (q : Request maxNumThreads) : Option AccessDataRecord :=
  (serve E.files (E.daemonSetup q.socket) q.record).result (E.daemons q.socket)

/-- A call of the client with its daemon: the code and `*data`. -/
def ask (op : ClientOp maxNumThreads) : Option (Int × Word) :=
  match op.ask E.setup.core2node E.client with
  | .error code => some (code, 0)
  | .ok q => (E.reply q).map fun reply => op.result reply

/-- `access_check`; nothing where the behaviour is not defined. -/
def check (mode : AccessMode) (dev : PciDeviceIndex) (cpu : Fin maxNumThreads) : Option Int :=
  match mode with
  | .daemon => (E.ask (.check dev cpu)).map Prod.fst
  | .direct => (accessX86Check E.setup dev cpu : Prog Int Direct Int).result E.direct

/-- `access_read` or `access_write`: the code and `*data`. -/
def access (a : RegAccess) (mode : AccessMode) (dev : PciDeviceIndex) (cpu : Fin maxNumThreads)
    (reg : ℕ) : Option (Int × Word) :=
  match mode with
  | .daemon => E.ask (a.op dev cpu reg)
  | .direct =>
      (a.direct E.files E.setup dev cpu reg : Prog Int Direct (Int × Word)).result E.direct

end Modules

/-! ## Devices that are found, and that are served -/

/-- `msr_check` or `pci_check` of the daemon finds the device. -/
def Daemon.Has (d : Daemon) (core2node : ℕ → ℕ) (dev : PciDeviceIndex) (cpu : ℕ) : Prop :=
  if dev = msrDev then d.fdMsr cpu = .unopened ∨ d.fdMsr cpu = .opened
  else core2node cpu < maxNumNodes ∧ dev < maxNumPciDevices ∧ d.fdPci (core2node cpu) dev ≠ .absent

/-- The daemon answers the access, and not that there is no device: the file of a
CPU must be open, and the path of a PCI device known where it is needed. -/
def Daemon.Serves (daemon : DaemonSetup) (d : Daemon) (core2node : ℕ → ℕ) (dev : PciDeviceIndex)
    (cpu reg : ℕ) : Prop :=
  if dev = msrDev then d.fdMsr cpu = .opened
  else core2node cpu < maxNumNodes ∧ dev < maxNumPciDevices ∧
    d.fdPci (core2node cpu) dev ≠ .absent ∧
      (daemon.allowedPci ≠ none → daemon.pciDevicesDaemon ≠ none) ∧
        (daemon.permits dev reg = true → d.fdPci (core2node cpu) dev ≠ .failed →
          daemon.pciFilepath (core2node cpu) dev ≠ none)

/-- A device that the check of the module finds is served. In direct mode the
routines take the socket for the device and the device for the socket, so it is
the exchanged descriptor that must be there. -/
def Modules.Serves (E : Modules) (a : RegAccess) (mode : AccessMode) (dev : PciDeviceIndex)
    (cpu : Fin maxNumThreads) (reg : ℕ) : Prop :=
  match mode with
  | .daemon => ∀ q, E.client.checkRequest E.setup.core2node dev cpu = .ok q →
      (E.daemons q.socket).Has E.setup.core2node dev cpu →
        ∀ q', (a.op dev cpu reg).ask E.setup.core2node E.client = .ok q' →
          (E.daemons q'.socket).Serves (E.daemonSetup q'.socket) E.setup.core2node dev cpu reg
  | .direct => dev ≠ msrDev → Found E.setup E.direct dev (E.setup.core2node cpu) →
      E.setup.core2node cpu ≠ msrDev ∧ E.setup.core2node cpu < maxNumPciDevices ∧
        dev < maxNumNodes ∧ (E.direct.fdPci dev (E.setup.core2node cpu) = .unopened ∨
          E.direct.fdPci dev (E.setup.core2node cpu) = .opened)

section Direct

variable {ρ : Type} {files : DeviceFiles} {setup : DirectSetup} {x : Direct} {a : RegAccess}
  {dev cpu reg : ℕ}

theorem accessX86Check_twp (hdev : dev ≠ msrDev) :
    (accessX86Check setup dev cpu : Prog ρ Direct Int).twp (fun v _ => v ≠ 0)
      (fun _ _ => False) x ↔ Found setup x dev (setup.core2node cpu) := by
  unfold accessX86Check
  rw [if_neg hdev, Prog.twp_bind]
  by_cases hfound : Found setup x dev (setup.core2node cpu)
  · have hrun := check_of_found (ρ := ρ) hfound
    simp [Prog.twp, hrun, hfound, Prog.pure_apply]
  · rcases check_of_not_found (ρ := ρ) hfound with hrun | ⟨k, hrun⟩
    · simp [Prog.twp, hrun, hfound, Prog.pure_apply]
    · simp [Prog.twp, hrun, hfound]

theorem accessX86PciOpen_twp {r : Int → ρ} {socket : ℕ} {Q : DeviceFile → Direct → Prop}
    {R : ρ → Direct → Prop} {devices : PciDeviceIndex → PciDevice}
    (hdevices : setup.pciDevices = some devices) :
    (accessX86PciOpen files setup dev socket r).twp Q R x ↔
      (socket < maxNumNodes ∧ dev < maxNumPciDevices) ∧
        match x.fdPci socket dev with
        | .absent | .failed => R (r (-enodev)) x
        | .unopened =>
            if files.opens (setup.filepath devices socket dev) then
              Q (setup.filepath devices socket dev) (x.setFdPci socket dev .opened)
            else R (r (-eacces)) (x.setFdPci socket dev .failed)
        | .opened => Q (setup.filepath devices socket dev) x := by
  unfold accessX86PciOpen
  simp only [Prog.twp_bind, Prog.twp_get, Prog.twp_when, Prog.twp_halt, Prog.twp_ret,
    Prog.twp_orUndefined, Prog.twp_modify, Prog.twp_pure, hdevices, not_or, Nat.not_le]
  by_cases hin : socket < maxNumNodes ∧ dev < maxNumPciDevices
  · cases hfd : x.fdPci socket dev with
    | absent | failed | opened => simp [hin]
    | unopened =>
        cases hopen : files.opens (setup.filepath devices socket dev) <;> simp [hin, hopen]
  · have hout : maxNumNodes ≤ socket ∨ maxNumPciDevices ≤ dev := by omega
    exact iff_of_false (fun h => h.1 hout) fun h => hin h.1

/-- The PCI routines answer, and not with `-ENODEV`, exactly if the descriptor of
the device and socket they are given is there. -/
theorem pci_served {socket : ℕ} {devices : PciDeviceIndex → PciDevice}
    (hdevices : setup.pciDevices = some devices) :
    (a.pci files setup dev socket reg : Prog ρ Direct _).twp (fun r _ => r.1 ≠ -enodev)
      (fun _ _ => False) x ↔
        dev ≠ msrDev ∧ dev < maxNumPciDevices ∧ socket < maxNumNodes ∧
          (x.fdPci socket dev = .unopened ∨ x.fdPci socket dev = .opened) := by
  have heio : eio ≠ enodev := by decide
  have heacces : eacces ≠ enodev := by decide
  have hdone : (0 : Int) ≠ -enodev := by decide
  by_cases h0 : dev = msrDev
  · subst h0
    rw [Prog.twp, pci_of_msrDev]
    simp
  · cases a with
    | read =>
        unfold RegAccess.pci accessX86PciRead
        simp only [Prog.twp_call, Prog.twp_bind, Prog.twp_when, Prog.twp_ret, h0,
          accessX86PciOpen_twp hdevices]
        cases hfd : x.fdPci socket dev with
        | absent | failed => simp [h0]
        | opened =>
            cases hread : files.pread 32 (setup.filepath devices socket dev) reg <;>
              simp [heio, hdone, h0, and_comm]
        | unopened =>
          cases hopen : files.opens (setup.filepath devices socket dev) <;>
            cases hread : files.pread 32 (setup.filepath devices socket dev) reg <;>
              simp [heio, heacces, hdone, h0, and_comm]
    | write data =>
        unfold RegAccess.pci accessX86PciWrite
        simp only [Prog.twp_call, Prog.twp_bind, Prog.twp_when, Prog.twp_ret, h0, Prog.twp_modify,
          Prog.twp_pure, accessX86PciOpen_twp hdevices]
        cases hfd : x.fdPci socket dev with
        | absent | failed => simp [h0]
        | opened =>
            cases hwrite : files.pwrite 32 (setup.filepath devices socket dev) reg
              (data.setWidth 32) <;> simp [heio, hdone, h0, and_comm]
        | unopened =>
          cases hopen : files.opens (setup.filepath devices socket dev) <;>
            cases hwrite : files.pwrite 32 (setup.filepath devices socket dev) reg
              (data.setWidth 32) <;> simp [heio, heacces, hdone, h0, and_comm]

theorem msr_served :
    (a.direct files setup msrDev cpu reg : Prog ρ Direct _).twp (fun r _ => r.1 ≠ -enodev)
      (fun _ _ => False) x := by
  have heio : eio ≠ enodev := by decide
  have hfail : (-1 : Int) ≠ -enodev := by decide
  have hdone : (0 : Int) ≠ -enodev := by decide
  cases a with
  | read =>
      unfold RegAccess.direct accessX86Read accessX86MsrRead
      rw [if_pos rfl]
      simp only [Prog.twp_call, Prog.twp_bind, Prog.twp_get]
      cases setup.rdpmcIndex reg with
      | some counter => simpa using hdone
      | none => cases hread : files.pread 64 (.msr cpu) reg <;> simp [heio, hdone]
  | write data =>
      unfold RegAccess.direct accessX86Write accessX86MsrWrite
      dsimp only
      rw [if_pos rfl]
      simp only [Prog.twp_call, Prog.twp_bind, Prog.twp_get, Prog.twp_when, Prog.twp_ret,
        Prog.twp_modify, Prog.twp_pure]
      exact ⟨fun _ => ⟨fun _ => hfail, fun _ => hdone⟩, fun _ => hdone⟩

end Direct

section Daemon

variable {files : DeviceFiles} {daemon : DaemonSetup} {d : Daemon} {core2node : ℕ → ℕ}
  {a : RegAccess} {dev cpu reg : ℕ}

theorem serve_check_twp (hcpu : cpu < maxNumThreads) :
    (serve files daemon (recordFor core2node dev cpu .daemonCheck)).twp
      (fun reply _ => checkResult reply ≠ 0) (fun _ _ => False) d ↔ d.Has core2node dev cpu := by
  unfold Daemon.Has
  by_cases h0 : dev = msrDev
  · subst h0
    have hserve : serve files daemon (recordFor core2node msrDev cpu .daemonCheck) =
        Prog.call _ (msrCheck (recordFor core2node msrDev cpu .daemonCheck)) := rfl
    rw [hserve, if_pos rfl]
    unfold msrCheck recordFor
    rw [if_neg fun h => h rfl]
    simp only [Prog.twp_call, Prog.twp_bind, Prog.twp_get, Prog.twp_when, Prog.twp_ret,
      Prog.twp_halt]
    cases hfd : d.fdMsr cpu <;> simp [checkResult, hcpu]
  · have hserve : serve files daemon (recordFor core2node dev cpu .daemonCheck) =
        Prog.call _ (pciCheck (recordFor core2node dev cpu .daemonCheck)) := if_neg h0
    rw [hserve, if_neg h0]
    unfold pciCheck recordFor
    rw [if_pos h0]
    simp only [Prog.twp_call, Prog.twp_bind, Prog.twp_get, Prog.twp_when, Prog.twp_ret,
      Prog.twp_halt]
    cases hfd : d.fdPci (core2node cpu) dev <;> simp [checkResult]

theorem checkAllowedPci_twp {dRecord : AccessDataRecord} {Q : Unit → Daemon → Prop}
    {R : AccessDataRecord → Daemon → Prop} :
    (checkAllowedPci daemon dRecord).twp Q R d ↔
      (daemon.allowedPci ≠ none → daemon.pciDevicesDaemon ≠ none) ∧
        if daemon.permits dRecord.device dRecord.reg then Q () d
        else R { dRecord with errorcode := .restReg } d := by
  unfold checkAllowedPci DaemonSetup.permits
  cases hallowed : daemon.allowedPci with
  | none => simp
  | some allowedPci =>
      cases hdevices : daemon.pciDevicesDaemon with
      | none => simp
      | some devices => cases h : allowedPci (devices dRecord.device).type dRecord.reg <;> simp [h]

/-- What `pci_read` and `pci_write` of the daemon do until the device file is
open. -/
theorem pciOpen_twp {dRecord : AccessDataRecord} {Q : Unit → Daemon → Prop}
    {R : AccessDataRecord → Daemon → Prop} :
    (pciOpen files daemon dRecord).twp Q R d ↔
      (dRecord.cpu < maxNumNodes ∧ dRecord.device < maxNumPciDevices) ∧
        if d.fdPci dRecord.cpu dRecord.device = .absent then
          R { dRecord with errorcode := .noDev } d
        else (daemon.allowedPci ≠ none → daemon.pciDevicesDaemon ≠ none) ∧
          if daemon.permits dRecord.device dRecord.reg then
            if d.fdPci dRecord.cpu dRecord.device = .unopened then
              ∃ file, daemon.pciFilepath dRecord.cpu dRecord.device = some file ∧
                if files.opens file then
                  Q () (d.setFdPci dRecord.cpu dRecord.device .opened)
                else R { dRecord with errorcode := .openFail }
                  (d.setFdPci dRecord.cpu dRecord.device .failed)
            else Q () d
          else R { dRecord with errorcode := .restReg } d := by
  unfold pciOpen
  simp only [Prog.twp_bind, Prog.twp_get, Prog.twp_when, Prog.twp_halt, Prog.twp_ret,
    Prog.twp_orUndefined, Prog.twp_modify, checkAllowedPci_twp]
  by_cases hin : dRecord.cpu < maxNumNodes ∧ dRecord.device < maxNumPciDevices
  · have hin' : ¬(maxNumNodes ≤ dRecord.cpu ∨ maxNumPciDevices ≤ dRecord.device) := by
      rintro (hge | hge)
      · exact Nat.not_lt.mpr hge hin.1
      · exact Nat.not_lt.mpr hge hin.2
    cases hfd : d.fdPci dRecord.cpu dRecord.device with
    | absent | failed | opened => simp [hin, hin']
    | unopened =>
        cases hfile : daemon.pciFilepath dRecord.cpu dRecord.device with
        | none => simp [hin, hin']
        | some file => cases hopen : files.opens file <;> simp [hin, hin', hopen]
  · have hout : maxNumNodes ≤ dRecord.cpu ∨ maxNumPciDevices ≤ dRecord.device := by
      by_contra hout
      exact hin ⟨Nat.lt_of_not_le fun hge => hout (Or.inl hge),
        Nat.lt_of_not_le fun hge => hout (Or.inr hge)⟩
    exact iff_of_false (fun h => h.1 hout) fun h => hin h.1

theorem pciOpen_served {dRecord : AccessDataRecord} {Q : Unit → Daemon → Prop}
    {R : AccessDataRecord → Daemon → Prop}
    (hR : ∀ reply d', R reply d' ↔ reply.errorcode ≠ .noDev)
    (hQ : ∀ d', Q () d' ↔ (d'.fdPci dRecord.cpu dRecord.device = .opened →
      daemon.pciFilepath dRecord.cpu dRecord.device ≠ none)) :
    (pciOpen files daemon dRecord).twp Q R d ↔
      dRecord.cpu < maxNumNodes ∧ dRecord.device < maxNumPciDevices ∧
        d.fdPci dRecord.cpu dRecord.device ≠ .absent ∧
          (daemon.allowedPci ≠ none → daemon.pciDevicesDaemon ≠ none) ∧
            (daemon.permits dRecord.device dRecord.reg = true →
              d.fdPci dRecord.cpu dRecord.device ≠ .failed →
                daemon.pciFilepath dRecord.cpu dRecord.device ≠ none) := by
  rw [pciOpen_twp]
  simp only [hR, hQ, and_assoc]
  cases hfd : d.fdPci dRecord.cpu dRecord.device with
  | absent => simp
  | failed => simp
  | opened => simp
  | unopened =>
      cases hfile : daemon.pciFilepath dRecord.cpu dRecord.device with
      | none => simp
      | some file => cases hopen : files.opens file <;> simp

/-- The daemon answers an access, and not that there is no device, exactly if it
serves the device. -/
theorem serve_access_twp (hcpu : cpu < maxNumThreads) :
    (serve files daemon (a.record core2node dev cpu reg)).twp
      (fun reply _ => reply.errorcode ≠ .noDev) (fun _ _ => False) d ↔
        d.Serves daemon core2node dev cpu reg := by
  unfold Daemon.Serves
  by_cases h0 : dev = msrDev
  · subst h0
    rw [if_pos rfl]
    cases a with
    | read =>
        have hserve : serve files daemon (RegAccess.read.record core2node msrDev cpu reg) =
          Prog.call _ (msrRead files daemon (RegAccess.read.record core2node msrDev cpu reg)) := rfl
        rw [hserve]
        unfold msrRead RegAccess.record recordFor
        dsimp only
        rw [if_neg fun h => h rfl]
        simp only [Prog.twp_call, Prog.twp_bind, Prog.twp_get, Prog.twp_when, Prog.twp_ret,
          Prog.twp_halt]
        cases hread : files.pread 64 (.msr cpu) reg <;> cases hfd : d.fdMsr cpu <;> simp [hcpu]
    | write data =>
        have hserve : serve files daemon ((RegAccess.write data).record core2node msrDev cpu reg) =
          (Prog.call _ (msrWrite files daemon
            ((RegAccess.write data).record core2node msrDev cpu reg)) >>= fun reply =>
              pure { reply with data := 0 }) := rfl
        rw [hserve]
        unfold msrWrite RegAccess.record recordFor
        dsimp only
        rw [if_neg fun h => h rfl]
        simp only [Prog.twp_call, Prog.twp_bind, Prog.twp_get, Prog.twp_when, Prog.twp_ret,
          Prog.twp_halt, Prog.twp_modify, Prog.twp_pure]
        cases hwrite : files.pwrite 64 (.msr cpu) reg data <;> cases hfd : d.fdMsr cpu <;>
          simp [hcpu]
  · rw [if_neg h0]
    cases a with
    | read =>
        have hserve : serve files daemon (RegAccess.read.record core2node dev cpu reg) =
            Prog.call _ (pciRead files daemon (RegAccess.read.record core2node dev cpu reg)) :=
          if_neg h0
        rw [hserve]
        unfold pciRead RegAccess.record recordFor
        dsimp only
        rw [if_pos h0]
        simp only [Prog.twp_call, Prog.twp_bind]
        refine pciOpen_served (fun reply d' => Iff.rfl) fun d' => ?_
        simp only [Prog.twp_get, Prog.twp_when, Prog.twp_ret, Prog.twp_orUndefined]
        cases hfile : daemon.pciFilepath (core2node cpu) dev with
        | none => simp
        | some file => cases hread : files.pread 32 file reg <;> simp [hread]
    | write data =>
        have hserve : serve files daemon ((RegAccess.write data).record core2node dev cpu reg) =
          (Prog.call ((RegAccess.write data).record core2node dev cpu reg) (pciWrite files daemon
            ((RegAccess.write data).record core2node dev cpu reg)) >>= fun reply =>
              pure { reply with data := 0 }) := if_neg h0
        rw [hserve]
        unfold pciWrite RegAccess.record recordFor
        dsimp only
        rw [if_pos h0]
        simp only [Prog.twp_call, Prog.twp_bind, Prog.twp_pure]
        refine pciOpen_served (fun reply d' => Iff.rfl) fun d' => ?_
        simp only [Prog.twp_get, Prog.twp_when, Prog.twp_ret, Prog.twp_orUndefined,
          Prog.twp_modify]
        cases hfile : daemon.pciFilepath (core2node cpu) dev with
        | none => simp
        | some file => cases hwrite : files.pwrite 32 file reg (data.setWidth 32) <;> simp

end Daemon

/-! ## What is found is served -/

section Serves

variable {E : Modules} {a : RegAccess} {mode : AccessMode} {dev reg : ℕ}
  {cpu : Fin maxNumThreads}

theorem accessClientErrno_eq_enodev (err : AccessErrorType) :
    accessClientErrno err = -enodev ↔ err = .noDev := by
  cases err <;> decide

theorem readResult_fst (reply : AccessDataRecord) :
    (readResult reply).1 = accessClientErrno reply.errorcode := by
  unfold readResult
  split
  · next hok => rw [hok]; rfl
  · rfl

theorem result_op (reply : AccessDataRecord) :
    ((a.op dev cpu reg).result reply).1 = accessClientErrno reply.errorcode := by
  cases a with
  | read => exact readResult_fst reply
  | write data => rfl

/-- An access is refused at once as there is no connection, or asks its daemon. -/
theorem ask_op_cases (core2node : ℕ → ℕ) (c : Client maxNumThreads) (a : RegAccess)
    (dev : PciDeviceIndex) (cpu : Fin maxNumThreads) (reg : ℕ) :
    (∃ code, (a.op dev cpu reg).ask core2node c = .error code ∧ code ≠ -enodev) ∨
      ∃ q, (a.op dev cpu reg).ask core2node c = .ok q ∧
        q.record = a.record core2node dev cpu reg := by
  have henoent : -enoent ≠ -enodev := by decide
  have hebadfd : -ebadfd ≠ -enodev := by decide
  cases a with
  | read =>
      unfold RegAccess.op ClientOp.ask Client.readRequest
      dsimp only
      split
      · exact Or.inl ⟨_, rfl, henoent⟩
      · split
        · exact Or.inr ⟨_, rfl, rfl⟩
        · exact Or.inl ⟨_, rfl, hebadfd⟩
  | write data =>
      unfold RegAccess.op ClientOp.ask Client.writeRequest
      dsimp only
      split
      · exact Or.inl ⟨_, rfl, henoent⟩
      · split
        · exact Or.inr ⟨_, rfl, rfl⟩
        · exact Or.inl ⟨_, rfl, hebadfd⟩

/-- A check is answered with `0` at once, or asks its daemon. -/
theorem ask_check_cases (core2node : ℕ → ℕ) (c : Client maxNumThreads) (dev : PciDeviceIndex)
    (cpu : Fin maxNumThreads) :
    c.checkRequest core2node dev cpu = .error 0 ∨
      ∃ q, c.checkRequest core2node dev cpu = .ok q ∧
        q.record = recordFor core2node dev cpu .daemonCheck := by
  unfold Client.checkRequest
  dsimp only
  split
  · exact Or.inr ⟨_, rfl, rfl⟩
  · exact Or.inl rfl

theorem exists_map_iff {α β : Type} {o : Option α} {f : α → β} {P : β → Prop} :
    (∃ b, o.map f = some b ∧ P b) ↔ ∃ a, o = some a ∧ P (f a) := by
  cases o <;> simp

/-- The check finds the device if the daemon is asked and has it. -/
theorem daemon_check_iff : (∃ v, E.check .daemon dev cpu = some v ∧ v ≠ 0) ↔
    ∃ q, E.client.checkRequest E.setup.core2node dev cpu = .ok q ∧
      (E.daemons q.socket).Has E.setup.core2node dev cpu := by
  unfold Modules.check Modules.ask ClientOp.ask
  dsimp only
  rcases ask_check_cases E.setup.core2node E.client dev cpu with hask | ⟨q, hask, hrecord⟩
  · simp [hask]
  · rw [hask]
    dsimp only
    rw [exists_map_iff, exists_map_iff]
    unfold Modules.reply
    rw [Prog.exists_result_iff, hrecord]
    have hhas : (serve E.files (E.daemonSetup q.socket)
        (recordFor E.setup.core2node dev cpu .daemonCheck)).twp
          (fun reply _ => checkResult reply ≠ 0) (fun _ _ => False) (E.daemons q.socket) ↔
        (E.daemons q.socket).Has E.setup.core2node dev cpu := serve_check_twp cpu.isLt
    simpa [ClientOp.result] using hhas

/-- An access is answered, and not with `-ENODEV`, if the daemon it asks serves the
device. -/
theorem daemon_access_iff : (∃ r, E.access a .daemon dev cpu reg = some r ∧ r.1 ≠ -enodev) ↔
    ∀ q, (a.op dev cpu reg).ask E.setup.core2node E.client = .ok q →
      (E.daemons q.socket).Serves (E.daemonSetup q.socket) E.setup.core2node dev cpu reg := by
  unfold Modules.access Modules.ask
  dsimp only
  rcases ask_op_cases E.setup.core2node E.client a dev cpu reg with
    ⟨code, hask, hcode⟩ | ⟨q, hask, hrecord⟩
  · simp [hask, hcode]
  · rw [hask]
    dsimp only
    rw [exists_map_iff]
    unfold Modules.reply
    simp only [result_op, ne_eq, accessClientErrno_eq_enodev]
    rw [Prog.exists_result_iff, hrecord]
    refine (serve_access_twp cpu.isLt).trans ?_
    simp

theorem direct_check_iff (hdev : dev ≠ msrDev) :
    (∃ v, E.check .direct dev cpu = some v ∧ v ≠ 0) ↔
      Found E.setup E.direct dev (E.setup.core2node cpu) := by
  unfold Modules.check
  dsimp only
  rw [Prog.exists_result_iff]
  exact accessX86Check_twp hdev

/-- **What is found is served**: an access to a device that the check finds is
answered, and not with `-ENODEV`. -/
theorem serves_iff : (∀ v, E.check mode dev cpu = some v → v ≠ 0 →
    ∃ r, E.access a mode dev cpu reg = some r ∧ r.1 ≠ -enodev) ↔ E.Serves a mode dev cpu reg := by
  have hcomm : (∀ v, E.check mode dev cpu = some v → v ≠ 0 →
      ∃ r, E.access a mode dev cpu reg = some r ∧ r.1 ≠ -enodev) ↔
      ((∃ v, E.check mode dev cpu = some v ∧ v ≠ 0) →
        ∃ r, E.access a mode dev cpu reg = some r ∧ r.1 ≠ -enodev) := by
    simp only [forall_exists_index, and_imp]
  rw [hcomm]
  cases mode with
  | daemon =>
      rw [daemon_check_iff, daemon_access_iff]
      unfold Modules.Serves
      simp only [forall_exists_index, and_imp]
  | direct =>
      unfold Modules.Serves
      by_cases h0 : dev = msrDev
      · subst h0
        refine iff_of_true (fun _ => ?_) fun hne => absurd rfl hne
        exact Prog.exists_result_iff.mpr msr_served
      · rw [direct_check_iff h0]
        simp only [ne_eq, h0, not_false_eq_true, true_implies]
        refine forall_congr' fun hfound => ?_
        obtain ⟨devices, hdevices⟩ := Option.ne_none_iff_exists'.mp hfound.1
        unfold Modules.access
        dsimp only
        rw [Prog.exists_result_iff, Prog.twp, direct_of_found h0 hfound]
        exact pci_served hdevices

end Serves

end Likwid
