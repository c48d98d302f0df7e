import Likwid.AccessClient
import Likwid.DaemonRequests

/-!
# Direct register access

In direct mode the library opens the device files itself. `access_x86_read` and
`access_x86_write` hand the socket to `access_x86_pci_read` and
`access_x86_pci_write` where these take the device, and the device where they
take the socket. So a PCI register is reached exactly if the two exchanged name
the same device file, and a device that `access_x86_pci_check` does not find is
answered with an uninitialised variable (`sameRegister_iff`).
-/

namespace Likwid

abbrev eacces : Int := 13

/-! ## The module -/

/-- What is determined before the first access. -/
structure DirectSetup where
  core2node : ℕ → ℕ
  /-- `"N-A"` where no bus was found. -/
  socketBus : ℕ → String
  pciDevices : Option (PciDeviceIndex → PciDevice)
  /-- `rdpmc_works_pmc == 1`, `rdpmc_works_fixed == 1` -/
  rdpmcWorksPmc : Bool
  rdpmcWorksFixed : Bool

/-- The descriptor tables of the MSR and the PCI module and
`pci_devices[..].online`. -/
structure Direct where
  fdMsr : ℕ → Fd
  fdPci : ℕ → PciDeviceIndex → Fd
  online : PciDeviceIndex → Bool
  touched : List Touch := []

def Direct.touch (x : Direct) (t : Touch) : Direct := { x with touched := t :: x.touched }

/-- `FD[socket][dev] = fd` -/
def Direct.setFdPci (x : Direct) (socket : ℕ) (dev : PciDeviceIndex) (fd : Fd) : Direct :=
  { x with fdPci := fun i j => if i = socket ∧ j = dev then fd else x.fdPci i j }

section Module

variable {ρ : Type} (files : DeviceFiles) (setup : DirectSetup)

/-- `reg` is read with `rdpmc`, as this counter. -/
def DirectSetup.rdpmcIndex (reg : ℕ) : Option ℕ :=
  if setup.rdpmcWorksPmc ∧ msrPmc0 ≤ reg ∧ reg ≤ msrPmc0 + 7 then some (reg - msrPmc0)
  else if setup.rdpmcWorksFixed ∧ msrPerfFixedCtr0 ≤ reg ∧ reg ≤ msrPerfFixedCtr0 + 2 then
    some (2 ^ 30 + (reg - msrPerfFixedCtr0))
  else none

/-- `data` is what `*data` holds before. Without an open descriptor nothing is
read and `0` returned. -/
def accessX86MsrRead (cpu reg : ℕ) (data : Word) : Prog (Int × Word) Direct Unit := do
  let x ← Prog.get
  match setup.rdpmcIndex reg with
  | some counter => do
      Prog.modify (·.touch (.read (.msr cpu) reg (files.rdpmc cpu counter)))
      Prog.ret (0, files.rdpmc cpu counter)
  | none => do
      Prog.when (x.fdMsr cpu = .opened) (
        match files.pread 64 (.msr cpu) reg with
        | none => Prog.ret (-eio, data)
        | some v => do
            Prog.modify (·.touch (.read (.msr cpu) reg v))
            Prog.ret (0, v))
      Prog.ret (0, data)

def accessX86MsrWrite (cpu reg : ℕ) (data : Word) : Prog Int Direct Unit := do
  let x ← Prog.get
  Prog.when (x.fdMsr cpu = .opened) (do
    Prog.when (!files.pwrite 64 (.msr cpu) reg data) (Prog.ret (-1))
    Prog.modify (·.touch (.write (.msr cpu) reg data)))
  Prog.ret 0

/-- The device file of a PCI device of a socket; a device without a path adds
nothing to the name. -/
def DirectSetup.filepath (devices : PciDeviceIndex → PciDevice) (socket : ℕ)
    (dev : PciDeviceIndex) : DeviceFile :=
  .pci (pciRootPath ++ setup.socketBus socket ++ (devices dev).path.getD "")

/-- What `access_x86_pci_read` and `access_x86_pci_write` do before the access. `r`
makes the value returned of an error code. -/
def accessX86PciOpen (dev : PciDeviceIndex) (socket : ℕ) (r : Int → ρ) :
    Prog ρ Direct DeviceFile := do
  let x ← Prog.get
  Prog.when (maxNumNodes ≤ socket ∨ maxNumPciDevices ≤ dev) (Prog.halt .outOfBounds)
  Prog.when (x.fdPci socket dev = .absent ∨ x.fdPci socket dev = .failed) (Prog.ret (r (-enodev)))
  let devices ← Prog.orUndefined setup.pciDevices
  let file := setup.filepath devices socket dev
  Prog.when (x.fdPci socket dev = .unopened) (do
    Prog.when (!files.opens file) (do
      Prog.modify (·.setFdPci socket dev .failed)
      Prog.ret (r (-eacces)))
    Prog.modify (·.setFdPci socket dev .opened))
  return file

def accessX86PciRead (dev : PciDeviceIndex) (socket : ℕ) (reg : ℕ) (data : Word) :
    Prog (Int × Word) Direct Unit := do
  Prog.when (dev = msrDev) (Prog.ret (-enodev, data))
  let file ← accessX86PciOpen files setup dev socket fun err => (err, 0)
  match files.pread 32 file reg with
  | none => Prog.ret (-eio, 0)
  | some tmp => do
      Prog.modify (·.touch (.read file reg (tmp.setWidth 64)))
      Prog.ret (0, tmp.setWidth 64)

def accessX86PciWrite (dev : PciDeviceIndex) (socket : ℕ) (reg : ℕ) (data : Word) :
    Prog Int Direct Unit := do
  let tmp : BitVec 32 := data.setWidth 32
  Prog.when (dev = msrDev) (Prog.ret (-enodev))
  let file ← accessX86PciOpen files setup dev socket id
  Prog.when (!files.pwrite 32 file reg tmp) (Prog.ret (-eio))
  Prog.modify (·.touch (.write file reg (tmp.setWidth 64)))
  Prog.ret 0

/-- The first comparison is between the address of the library function `index`
and `0`. -/
def accessX86PciCheck (dev : PciDeviceIndex) (socket : ℕ) : Prog ρ Direct Bool := do
  let x ← Prog.get
  Prog.when (setup.pciDevices = none) (Prog.halt .undefined)
  Prog.when (maxNumPciDevices ≤ dev ∨ x.online dev = false ∧ maxNumNodes ≤ socket)
    (Prog.halt .outOfBounds)
  return x.online dev ∨ x.fdPci socket dev = .unopened ∨ x.fdPci socket dev = .opened

/-- Where the device is not found `err` is returned uninitialised. -/
def accessX86Read (dev : PciDeviceIndex) (cpu reg : ℕ) : Prog ρ Direct (Int × Word) :=
  if dev = msrDev then Prog.call (0, 0) (accessX86MsrRead files setup cpu reg 0)
  else do
    let found ← accessX86PciCheck setup dev (setup.core2node cpu)
    Prog.when (found = false) (Prog.halt .undefined)
    Prog.call (0, 0) (accessX86PciRead files setup (setup.core2node cpu) dev reg 0)

def accessX86Write (dev : PciDeviceIndex) (cpu reg : ℕ) (data : Word) : Prog ρ Direct Int :=
  if dev = msrDev then Prog.call 0 (accessX86MsrWrite files cpu reg data)
  else do
    let found ← accessX86PciCheck setup dev (setup.core2node cpu)
    Prog.when (found = false) (Prog.halt .undefined)
    Prog.call 0 (accessX86PciWrite files setup (setup.core2node cpu) dev reg data)

def accessX86MsrCheck (cpu : ℕ) : Prog ρ Direct Int := do
  let x ← Prog.get
  return if x.fdMsr cpu = .opened then 1 else 0

def accessX86Check (dev : PciDeviceIndex) (cpu : ℕ) : Prog ρ Direct Int :=
  if dev = msrDev then accessX86MsrCheck cpu
  else do
    let found ← accessX86PciCheck setup dev (setup.core2node cpu)
    return if found then 1 else 0

end Module

/-! ## One access, both ways -/

inductive RegAccess where
  | read
  | write (data : Word)
deriving DecidableEq, Repr

namespace RegAccess

variable (files : DeviceFiles) (a : RegAccess)

/-- `access_x86_read` or `access_x86_write`: the code and `*data`. -/
def direct {ρ : Type} (setup : DirectSetup) (dev : PciDeviceIndex) (cpu reg : ℕ) :
    Prog ρ Direct (Int × Word) :=
  match a with
  | .read => accessX86Read files setup dev cpu reg
  | .write data => do
      let err ← accessX86Write files setup dev cpu reg data
      return (err, 0)

/-- The record the client sends for the same access. -/
def record (core2node : ℕ → ℕ) (dev : PciDeviceIndex) (cpu reg : ℕ) : AccessDataRecord :=
  match a with
  | .read => { recordFor core2node dev cpu .daemonRead with reg := reg, data := 0 }
  | .write data => { recordFor core2node dev cpu .daemonWrite with reg := reg, data := data }

/-- What the kernel answers to the access, of `w` bits. -/
def answer (w : ℕ) (file : DeviceFile) (reg : ℕ) : Option Word :=
  match a with
  | .read => (files.pread w file reg).map (·.setWidth 64)
  | .write data => if files.pwrite w file reg (data.setWidth w) then some 0 else none

/-- The access in the trace, with the value it read. -/
def touch (w : ℕ) (file : DeviceFile) (reg : ℕ) (v : Word) : Touch :=
  match a with
  | .read => .read file reg v
  | .write data => .write file reg ((data.setWidth w).setWidth 64)

end RegAccess

/-- The routine ends with this answer of the kernel; without one, with an error,
and no register was reached. -/
def EndsWith {ρ : Type} (a : RegAccess) (w : ℕ) (file : DeviceFile) (reg : ℕ)
    (m : Prog ρ Direct (Int × Word)) (x : Direct) (o : Option Word) : Prop :=
  ∃ code data x', m x = .done (code, data) x' ∧
    (∀ v, o = some v → code = 0 ∧ data = v ∧ x'.touched = a.touch w file reg v :: x.touched) ∧
      (o = none → code < 0 ∧ x'.touched = x.touched)

variable {files : DeviceFiles} {setup : DirectSetup} {x : Direct}

theorem accessX86PciOpen_usable {ρ : Type} {dev socket : ℕ} {r : Int → ρ}
    {devices : PciDeviceIndex → PciDevice} (hs : socket < maxNumNodes)
    (hd : dev < maxNumPciDevices) (hdev : setup.pciDevices = some devices)
    (hfd : (x.fdPci socket dev).Usable files (setup.filepath devices socket dev)) :
    ∃ x', accessX86PciOpen files setup dev socket r x =
      .done (setup.filepath devices socket dev) x' ∧ x'.touched = x.touched := by
  have hin : ¬(maxNumNodes ≤ socket ∨ maxNumPciDevices ≤ dev) := by omega
  unfold accessX86PciOpen
  rcases hfd with hfd | ⟨hfd, hopen⟩
  · refine ⟨x, ?_, rfl⟩
    simp [Prog.bind_apply, Prog.when_apply, Prog.get_apply, Prog.pure_apply, Prog.orUndefined,
      hin, hfd, hdev]
  · refine ⟨x.setFdPci socket dev .opened, ?_, rfl⟩
    simp [Prog.bind_apply, Prog.when_apply, Prog.get_apply, Prog.pure_apply, Prog.modify_apply,
      Prog.orUndefined, hin, hfd, hdev, hopen]

theorem accessX86PciOpen_not_usable {ρ : Type} {dev socket : ℕ} {r : Int → ρ}
    {devices : PciDeviceIndex → PciDevice} (hs : socket < maxNumNodes)
    (hd : dev < maxNumPciDevices) (hdev : setup.pciDevices = some devices)
    (hfd : ¬(x.fdPci socket dev).Usable files (setup.filepath devices socket dev)) :
    ∃ err x', err < 0 ∧ accessX86PciOpen files setup dev socket r x = .ret (r err) x' ∧
      x'.touched = x.touched := by
  have hin : ¬(maxNumNodes ≤ socket ∨ maxNumPciDevices ≤ dev) := by omega
  unfold accessX86PciOpen
  cases hentry : x.fdPci socket dev with
  | opened => exact absurd (Or.inl hentry) hfd
  | absent | failed =>
      refine ⟨-enodev, x, by decide, ?_, rfl⟩
      simp [Prog.bind_apply, Prog.when_apply, Prog.get_apply, Prog.ret_apply, hin, hentry]
  | unopened =>
      have hopen : files.opens (setup.filepath devices socket dev) = false := by
        by_contra h
        exact hfd (Or.inr ⟨hentry, by simpa using h⟩)
      refine ⟨-eacces, x.setFdPci socket dev .failed, by decide, ?_, rfl⟩
      simp [Prog.bind_apply, Prog.when_apply, Prog.get_apply, Prog.modify_apply, Prog.ret_apply,
        Prog.pure_apply, Prog.orUndefined, hin, hentry, hdev, hopen]

/-- `access_x86_pci_read` or `access_x86_pci_write`, called. -/
def RegAccess.pci {ρ : Type} (a : RegAccess) (files : DeviceFiles) (setup : DirectSetup)
    (dev : PciDeviceIndex) (socket reg : ℕ) : Prog ρ Direct (Int × Word) :=
  match a with
  | .read => Prog.call (0, 0) (accessX86PciRead files setup dev socket reg 0)
  | .write data => do
      let err ← Prog.call 0 (accessX86PciWrite files setup dev socket reg data)
      return (err, 0)

variable {ρ : Type} {a : RegAccess} {reg : ℕ} {devices : PciDeviceIndex → PciDevice}

theorem pci_of_msrDev (socket : ℕ) :
    (a.pci files setup msrDev socket reg : Prog ρ Direct _) x = .done (-enodev, 0) x := by
  cases a with
  | read => rfl
  | write data => rfl

/-- The PCI routines reach the register of the device and socket they are given,
if its descriptor is usable. -/
theorem pci_endsWith {dev socket : ℕ} (h0 : dev ≠ msrDev) (hs : socket < maxNumNodes)
    (hd : dev < maxNumPciDevices) (hdev : setup.pciDevices = some devices) :
    EndsWith a 32 (setup.filepath devices socket dev) reg
      (a.pci files setup dev socket reg : Prog ρ Direct _) x
      (if (x.fdPci socket dev).Usable files (setup.filepath devices socket dev)
        then a.answer files 32 (setup.filepath devices socket dev) reg else none) := by
  by_cases hfd : (x.fdPci socket dev).Usable files (setup.filepath devices socket dev)
  · rw [if_pos hfd]
    cases a with
    | read =>
        obtain ⟨x', hopen, htouched⟩ := accessX86PciOpen_usable (r := fun err => (err, (0 : Word)))
          hs hd hdev hfd
        unfold RegAccess.pci RegAccess.answer
        cases hread : files.pread 32 (setup.filepath devices socket dev) reg with
        | none =>
            refine ⟨-eio, 0, x', Prog.call_of_ret ?_, by simp, fun _ => ⟨by decide, htouched⟩⟩
            unfold accessX86PciRead
            rw [Prog.when_of_neg h0, Prog.bind_pure_left, Prog.bind_of_done hopen, hread]
            rfl
        | some v =>
            have hrun : accessX86PciRead files setup dev socket reg 0 x = .ret (0, v.setWidth 64)
                (x'.touch (.read (setup.filepath devices socket dev) reg (v.setWidth 64))) := by
              unfold accessX86PciRead
              rw [Prog.when_of_neg h0, Prog.bind_pure_left, Prog.bind_of_done hopen, hread]
              rfl
            refine ⟨0, v.setWidth 64, _, Prog.call_of_ret hrun, fun w hw => ?_, by simp⟩
            · obtain rfl : v.setWidth 64 = w := by simpa using hw
              exact ⟨rfl, rfl, by simp [Direct.touch, htouched, RegAccess.touch]⟩
    | write data =>
        obtain ⟨x', hopen, htouched⟩ := accessX86PciOpen_usable (r := (id : Int → Int)) hs hd hdev
          hfd
        unfold RegAccess.pci RegAccess.answer
        cases hwrite : files.pwrite 32 (setup.filepath devices socket dev) reg
            (data.setWidth 32) with
        | false =>
            have hrun : accessX86PciWrite files setup dev socket reg data x = .ret (-eio) x' := by
              unfold accessX86PciWrite
              rw [Prog.when_of_neg h0, Prog.bind_pure_left, Prog.bind_of_done hopen,
                Prog.when_of_pos (by simp [hwrite])]
              rfl
            exact ⟨-eio, 0, x', Prog.bind_of_done (Prog.call_of_ret hrun), by simp [hwrite],
              fun _ => ⟨by decide, htouched⟩⟩
        | true =>
            have hrun : accessX86PciWrite files setup dev socket reg data x =
                .ret 0 (x'.touch (.write (setup.filepath devices socket dev) reg
                  ((data.setWidth 32).setWidth 64))) := by
              unfold accessX86PciWrite
              rw [Prog.when_of_neg h0, Prog.bind_pure_left, Prog.bind_of_done hopen,
                Prog.when_of_neg (by simp [hwrite])]
              rfl
            refine ⟨0, 0, _, Prog.bind_of_done (Prog.call_of_ret hrun), fun w hw => ?_,
              by simp [hwrite]⟩
            obtain rfl : 0 = w := by simpa [hwrite] using hw
            exact ⟨rfl, rfl, by simp [Direct.touch, htouched, RegAccess.touch]⟩
  · rw [if_neg hfd]
    cases a with
    | read =>
        obtain ⟨err, x', herr, hopen, htouched⟩ := accessX86PciOpen_not_usable
          (r := fun err => (err, (0 : Word))) hs hd hdev hfd
        refine ⟨err, 0, x', Prog.call_of_ret ?_, by simp, fun _ => ⟨herr, htouched⟩⟩
        unfold accessX86PciRead
        rw [Prog.when_of_neg h0, Prog.bind_pure_left, Prog.bind_of_ret hopen]
    | write data =>
        obtain ⟨err, x', herr, hopen, htouched⟩ := accessX86PciOpen_not_usable
          (r := (id : Int → Int)) hs hd hdev hfd
        have hrun : accessX86PciWrite files setup dev socket reg data x = .ret err x' := by
          unfold accessX86PciWrite
          rw [Prog.when_of_neg h0, Prog.bind_pure_left, Prog.bind_of_ret hopen]
          rfl
        exact ⟨err, 0, x', Prog.bind_of_done (Prog.call_of_ret hrun), by simp,
          fun _ => ⟨herr, htouched⟩⟩

theorem EndsWith.of_eq {w : ℕ} {file : DeviceFile} {m m' : Prog ρ Direct (Int × Word)}
    {o : Option Word} (h : EndsWith a w file reg m x o) (heq : m' x = m x) :
    EndsWith a w file reg m' x o := by
  unfold EndsWith at h ⊢
  rwa [heq]

/-- `access_x86_pci_check` finds the device. -/
def Found (setup : DirectSetup) (x : Direct) (dev socket : ℕ) : Prop :=
  setup.pciDevices ≠ none ∧ dev < maxNumPciDevices ∧
    (x.online dev = true ∨
      socket < maxNumNodes ∧ (x.fdPci socket dev = .unopened ∨ x.fdPci socket dev = .opened))

theorem check_of_found {dev socket : ℕ} (h : Found setup x dev socket) :
    (accessX86PciCheck setup dev socket : Prog ρ Direct Bool) x = .done true x := by
  obtain ⟨hdev, hlt, hfound⟩ := h
  have hin : ¬(maxNumPciDevices ≤ dev ∨ x.online dev = false ∧ maxNumNodes ≤ socket) := by
    rintro (hge | ⟨hoff, hge⟩)
    · exact absurd hlt hge.not_gt
    · rcases hfound with hon | ⟨hs, _⟩
      · rw [hoff] at hon
        cases hon
      · exact absurd hs hge.not_gt
  have htrue : x.online dev = true ∨ x.fdPci socket dev = .unopened ∨
      x.fdPci socket dev = .opened := hfound.imp_right And.right
  unfold accessX86PciCheck
  rw [Prog.bind_of_done (Prog.get_apply x), Prog.when_of_neg hdev, Prog.bind_pure_left,
    Prog.when_of_neg hin, Prog.bind_pure_left, Prog.pure_apply, decide_eq_true htrue]

theorem check_of_not_found {dev socket : ℕ} (h : ¬Found setup x dev socket) :
    (accessX86PciCheck setup dev socket : Prog ρ Direct Bool) x = .done false x ∨
      ∃ k, (accessX86PciCheck setup dev socket : Prog ρ Direct Bool) x = .halt k := by
  unfold accessX86PciCheck
  rw [Prog.bind_of_done (Prog.get_apply x)]
  by_cases hdev : setup.pciDevices = none
  · exact Or.inr ⟨.undefined, by rw [Prog.when_of_pos hdev]; rfl⟩
  · rw [Prog.when_of_neg hdev, Prog.bind_pure_left]
    by_cases hin : maxNumPciDevices ≤ dev ∨ x.online dev = false ∧ maxNumNodes ≤ socket
    · exact Or.inr ⟨.outOfBounds, by rw [Prog.when_of_pos hin]; rfl⟩
    · refine Or.inl ?_
      have hfalse : ¬(x.online dev = true ∨ x.fdPci socket dev = .unopened ∨
          x.fdPci socket dev = .opened) := by
        rintro (hon | hfd)
        · exact h ⟨hdev, Nat.lt_of_not_le fun hge => hin (Or.inl hge), Or.inl hon⟩
        · refine h ⟨hdev, Nat.lt_of_not_le fun hge => hin (Or.inl hge), ?_⟩
          by_cases hon : x.online dev = true
          · exact Or.inl hon
          · exact Or.inr ⟨Nat.lt_of_not_le fun hge => hin (Or.inr ⟨by simpa using hon, hge⟩), hfd⟩
      rw [Prog.when_of_neg hin, Prog.bind_pure_left, Prog.pure_apply, decide_eq_false hfalse]

/-- A PCI device that is found is answered through the PCI routines, with the
socket in the place of the device. -/
theorem direct_of_found {dev cpu : ℕ} (h0 : dev ≠ msrDev)
    (h : Found setup x dev (setup.core2node cpu)) :
    (a.direct files setup dev cpu reg : Prog ρ Direct _) x =
      (a.pci files setup (setup.core2node cpu) dev reg : Prog ρ Direct _) x := by
  cases a with
  | read =>
      show accessX86Read files setup dev cpu reg x = _
      unfold accessX86Read
      rw [if_neg h0, Prog.bind_of_done (check_of_found h), Prog.when_of_neg (by simp),
        Prog.bind_pure_left]
      rfl
  | write data =>
      have hrun : (accessX86Write files setup dev cpu reg data : Prog ρ Direct Int) x =
          (Prog.call 0 (accessX86PciWrite files setup (setup.core2node cpu) dev reg data) :
            Prog ρ Direct Int) x := by
        unfold accessX86Write
        rw [if_neg h0, Prog.bind_of_done (check_of_found h), Prog.when_of_neg (by simp),
          Prog.bind_pure_left]
      show (accessX86Write files setup dev cpu reg data >>= fun err => pure (err, 0)) x = _
      rw [Prog.bind_apply, hrun]
      rfl

theorem direct_of_not_found (a : RegAccess) (reg : ℕ) {dev cpu : ℕ} (h0 : dev ≠ msrDev)
    (h : ¬Found setup x dev (setup.core2node cpu)) :
    ∃ k, (a.direct files setup dev cpu reg : Prog ρ Direct _) x = .halt k := by
  cases a with
  | read =>
      show ∃ k, accessX86Read files setup dev cpu reg x = .halt k
      unfold accessX86Read
      rw [if_neg h0]
      rcases check_of_not_found h with hfalse | ⟨k, hk⟩
      · exact ⟨.undefined, by rw [Prog.bind_of_done hfalse, Prog.when_of_pos rfl]; rfl⟩
      · exact ⟨k, Prog.bind_of_halt hk⟩
  | write data =>
      have hrun : ∃ k, (accessX86Write files setup dev cpu reg data : Prog ρ Direct Int) x =
          .halt k := by
        unfold accessX86Write
        rw [if_neg h0]
        rcases check_of_not_found h with hfalse | ⟨k, hk⟩
        · exact ⟨.undefined, by rw [Prog.bind_of_done hfalse, Prog.when_of_pos rfl]; rfl⟩
        · exact ⟨k, Prog.bind_of_halt hk⟩
      obtain ⟨k, hk⟩ := hrun
      exact ⟨k, Prog.bind_of_halt hk⟩

/-- The file a PCI access opens: that of the device with the number of the
socket, on the socket with the number of the device. -/
def exchangedFile (setup : DirectSetup) (devices : PciDeviceIndex → PciDevice)
    (dev : PciDeviceIndex) (cpu : ℕ) : DeviceFile :=
  setup.filepath devices dev (setup.core2node cpu)

/-- What the kernel answers to that access, if it is made. -/
def exchangedAnswer (files : DeviceFiles) (setup : DirectSetup)
    (devices : PciDeviceIndex → PciDevice) (x : Direct) (a : RegAccess) (dev : PciDeviceIndex)
    (cpu reg : ℕ) : Option Word :=
  if setup.core2node cpu ≠ msrDev ∧
      (x.fdPci dev (setup.core2node cpu)).Usable files (exchangedFile setup devices dev cpu) then
    a.answer files 32 (exchangedFile setup devices dev cpu) reg
  else none

theorem direct_endsWith (a : RegAccess) (reg : ℕ) {dev cpu : ℕ} (h0 : dev ≠ msrDev)
    (h : Found setup x dev (setup.core2node cpu)) (hdev : setup.pciDevices = some devices)
    (hs : setup.core2node cpu < maxNumPciDevices) :
    EndsWith a 32 (exchangedFile setup devices dev cpu) reg
      (a.direct files setup dev cpu reg : Prog ρ Direct _) x
      (exchangedAnswer files setup devices x a dev cpu reg) := by
  refine EndsWith.of_eq ?_ (direct_of_found h0 h)
  unfold exchangedAnswer
  by_cases hzero : setup.core2node cpu = msrDev
  · rw [if_neg (by simp [hzero]), hzero]
    exact ⟨-enodev, 0, x, pci_of_msrDev dev, by simp, fun _ => ⟨by decide, rfl⟩⟩
  · have hpci : EndsWith a 32 (setup.filepath devices dev (setup.core2node cpu)) reg
        (a.pci files setup (setup.core2node cpu) dev reg : Prog ρ Direct _) x _ :=
      pci_endsWith hzero (h.2.1.trans (by decide)) hs hdev
    simpa only [hzero, ne_eq, not_false_eq_true, true_and, exchangedFile] using hpci

/-- The registers of a CPU are reached through its open descriptor, or with
`rdpmc`. -/
def MsrServed (setup : DirectSetup) (x : Direct) (a : RegAccess) (cpu reg : ℕ) : Prop :=
  x.fdMsr cpu = .opened ∨ a = .read ∧ setup.rdpmcIndex reg ≠ none

/-- What the access to a register of a CPU delivers. -/
def msrAnswer (files : DeviceFiles) (setup : DirectSetup) (a : RegAccess) (cpu reg : ℕ) :
    Option Word :=
  match a, setup.rdpmcIndex reg with
  | .read, some counter => some (files.rdpmc cpu counter)
  | _, _ => a.answer files 64 (.msr cpu) reg

theorem direct_msr_endsWith {cpu : ℕ} (h : MsrServed setup x a cpu reg) :
    EndsWith a 64 (.msr cpu) reg (a.direct files setup msrDev cpu reg : Prog ρ Direct _) x
      (msrAnswer files setup a cpu reg) := by
  cases a with
  | read =>
      cases hindex : setup.rdpmcIndex reg with
      | some counter =>
          have hrun : accessX86MsrRead files setup cpu reg 0 x = .ret (0, files.rdpmc cpu counter)
              (x.touch (.read (.msr cpu) reg (files.rdpmc cpu counter))) := by
            unfold accessX86MsrRead
            rw [Prog.bind_of_done (Prog.get_apply x), hindex]
            rfl
          refine ⟨0, _, _, Prog.call_of_ret hrun, fun v hv => ?_, by simp [msrAnswer, hindex]⟩
          obtain rfl : files.rdpmc cpu counter = v := by simpa [msrAnswer, hindex] using hv
          exact ⟨rfl, rfl, rfl⟩
      | none =>
          have hfd : x.fdMsr cpu = .opened := h.resolve_right fun h' => h'.2 hindex
          cases hread : files.pread 64 (.msr cpu) reg with
          | none =>
              have hrun : accessX86MsrRead files setup cpu reg 0 x = .ret (-eio, 0) x := by
                unfold accessX86MsrRead
                rw [Prog.bind_of_done (Prog.get_apply x), hindex]
                dsimp only
                rw [Prog.when_of_pos hfd, hread]
                rfl
              exact ⟨-eio, 0, x, Prog.call_of_ret hrun, by simp [msrAnswer, hindex,
                RegAccess.answer, hread], fun _ => ⟨by decide, rfl⟩⟩
          | some v =>
              have hrun : accessX86MsrRead files setup cpu reg 0 x = .ret (0, v)
                  (x.touch (.read (.msr cpu) reg v)) := by
                unfold accessX86MsrRead
                rw [Prog.bind_of_done (Prog.get_apply x), hindex]
                dsimp only
                rw [Prog.when_of_pos hfd, hread]
                rfl
              refine ⟨0, v, _, Prog.call_of_ret hrun, fun w hw => ?_, by simp [msrAnswer, hindex,
                RegAccess.answer, hread]⟩
              obtain rfl : v = w := by simpa [msrAnswer, hindex, RegAccess.answer, hread] using hw
              exact ⟨rfl, rfl, rfl⟩
  | write data =>
      have hfd : x.fdMsr cpu = .opened := h.resolve_right fun h' => by cases h'.1
      cases hwrite : files.pwrite 64 (.msr cpu) reg data with
      | false =>
          have hrun : accessX86MsrWrite files cpu reg data x = .ret (-1) x := by
            unfold accessX86MsrWrite
            rw [Prog.bind_of_done (Prog.get_apply x), Prog.when_of_pos hfd,
              Prog.when_of_pos (by simp [hwrite])]
            rfl
          exact ⟨-1, 0, x, Prog.bind_of_done (Prog.call_of_ret hrun), by simp [msrAnswer,
            RegAccess.answer, hwrite], fun _ => ⟨by decide, rfl⟩⟩
      | true =>
          have hrun : accessX86MsrWrite files cpu reg data x = .ret 0
              (x.touch (.write (.msr cpu) reg data)) := by
            unfold accessX86MsrWrite
            rw [Prog.bind_of_done (Prog.get_apply x), Prog.when_of_pos hfd,
              Prog.when_of_neg (by simp [hwrite])]
            rfl
          refine ⟨0, 0, _, Prog.bind_of_done (Prog.call_of_ret hrun), fun w hw => ?_, by
            simp [msrAnswer, RegAccess.answer, hwrite]⟩
          obtain rfl : 0 = w := by simpa [msrAnswer, RegAccess.answer, hwrite] using hw
          exact ⟨rfl, rfl, by simp [Direct.touch, RegAccess.touch]⟩

/-- Otherwise nothing is reached, and no error returned. -/
theorem direct_msr_of_not_served {cpu : ℕ} (h : ¬MsrServed setup x a cpu reg) :
    (a.direct files setup msrDev cpu reg : Prog ρ Direct _) x = .done (0, 0) x := by
  have hfd : x.fdMsr cpu ≠ .opened := fun h' => h (Or.inl h')
  cases a with
  | read =>
      have hindex : setup.rdpmcIndex reg = none := by
        by_contra h'
        exact h (Or.inr ⟨rfl, h'⟩)
      have hrun : accessX86MsrRead files setup cpu reg 0 x = .ret (0, 0) x := by
        unfold accessX86MsrRead
        rw [Prog.bind_of_done (Prog.get_apply x), hindex]
        dsimp only
        rw [Prog.when_of_neg hfd]
        rfl
      exact Prog.call_of_ret hrun
  | write data =>
      have hrun : accessX86MsrWrite files cpu reg data x = .ret 0 x := by
        unfold accessX86MsrWrite
        rw [Prog.bind_of_done (Prog.get_apply x), Prog.when_of_neg hfd]
        rfl
      exact Prog.bind_of_done (Prog.call_of_ret hrun)

/-! ## What the daemon reaches -/

/-- What the kernel answers to the access the daemon makes, if it makes one. -/
def daemonAnswer (files : DeviceFiles) (daemon : DaemonSetup) (d : Daemon) (a : RegAccess)
    (core2node : ℕ → ℕ) (dev cpu reg : ℕ) : Option Word :=
  if dev = msrDev then
    if cpu < maxNumThreads ∧ d.fdMsr cpu = .opened ∧ daemon.allowed reg = true then
      a.answer files 64 (.msr cpu) reg
    else none
  else if core2node cpu < maxNumNodes ∧ dev < maxNumPciDevices ∧ daemon.permits dev reg = true then
    (daemon.pciFilepath (core2node cpu) dev).bind fun file =>
      if (d.fdPci (core2node cpu) dev).Usable files file then a.answer files 32 file reg else none
  else none

/-- The device file of a CPU, or of a PCI device on the socket of the CPU. -/
def intendedFile (daemon : DaemonSetup) (core2node : ℕ → ℕ) (dev cpu : ℕ) : Option DeviceFile :=
  if dev = msrDev then some (.msr cpu) else daemon.pciFilepath (core2node cpu) dev

def accessWidth (dev : ℕ) : ℕ := if dev = msrDev then 64 else 32

variable {daemon : DaemonSetup} {d : Daemon}

/-- The daemon's reply and the accesses it made. -/
def Replies (files : DeviceFiles) (daemon : DaemonSetup) (d : Daemon) (dRecord : AccessDataRecord)
    (v : Word) (t : Touch) : Prop :=
  ∃ reply d', (serve files daemon dRecord d) = .done reply d' ∧ reply.errorcode = .noError ∧
    reply.data = v ∧ d'.touched = t :: d.touched

theorem msr_replies {cpu : ℕ} {v : Word} {core2node : ℕ → ℕ} (hc : cpu < maxNumThreads)
    (hfd : d.fdMsr cpu = .opened) (hallowed : daemon.allowed reg = true)
    (h : a.answer files 64 (.msr cpu) reg = some v) :
    Replies files daemon d (a.record core2node msrDev cpu reg) v (a.touch 64 (.msr cpu) reg v) := by
  have hin : ¬maxNumThreads ≤ cpu := hc.not_ge
  cases a with
  | read =>
      have hread : files.pread 64 (.msr cpu) reg = some v := by simpa [RegAccess.answer] using h
      refine ⟨{ RegAccess.read.record core2node msrDev cpu reg with data := v },
        d.touch (.read (.msr cpu) reg v), ?_, rfl, rfl, rfl⟩
      simp [serve, RegAccess.record, recordFor, msrRead, Prog.call_apply, Prog.bind_apply,
        Prog.when_apply, Prog.get_apply, Prog.modify_apply, Prog.ret_apply, hin, hfd, hallowed,
        hread]
  | write data =>
      have hwrite : files.pwrite 64 (.msr cpu) reg data = true ∧ 0 = v := by
        simpa [RegAccess.answer] using h
      obtain ⟨hwrite, rfl⟩ := hwrite
      refine ⟨{ (RegAccess.write data).record core2node msrDev cpu reg with data := 0 },
        d.touch (.write (.msr cpu) reg data), ?_, rfl, rfl, by simp [Daemon.touch, RegAccess.touch]⟩
      simp [serve, RegAccess.record, recordFor, msrWrite, Prog.call_apply, Prog.bind_apply,
        Prog.when_apply, Prog.get_apply, Prog.modify_apply, Prog.ret_apply, Prog.pure_apply, hin,
        hfd, hallowed, hwrite]

theorem pciRead_ret {dRecord : AccessDataRecord} {file : DeviceFile} {v : BitVec 32}
    (hs : dRecord.cpu < maxNumNodes) (hd : dRecord.device < maxNumPciDevices)
    (hpermits : daemon.permits dRecord.device dRecord.reg = true)
    (hfile : daemon.pciFilepath dRecord.cpu dRecord.device = some file)
    (hfd : (d.fdPci dRecord.cpu dRecord.device).Usable files file)
    (hread : files.pread 32 file dRecord.reg = some v) :
    ∃ d', pciRead files daemon dRecord d =
        .ret { dRecord with errorcode := .noError, data := v.setWidth 64 } d' ∧
      d'.touched = .read file dRecord.reg (v.setWidth 64) :: d.touched := by
  obtain ⟨d', hopen, htouched, hopened⟩ :=
    pciOpen_usable (d := d) { dRecord with data := 0 } hs hd hpermits hfile hfd
  refine ⟨d'.touch (.read file dRecord.reg (v.setWidth 64)), ?_, by simp [Daemon.touch, htouched]⟩
  unfold pciRead
  rw [Prog.bind_of_done hopen, Prog.bind_of_done (Prog.get_apply d'),
    Prog.when_of_neg (fun h => h hopened), Prog.bind_pure_left, hfile, Prog.orUndefined,
    Prog.bind_pure_left, hread]
  rfl

theorem pciWrite_ret {dRecord : AccessDataRecord} {file : DeviceFile}
    (hs : dRecord.cpu < maxNumNodes) (hd : dRecord.device < maxNumPciDevices)
    (hpermits : daemon.permits dRecord.device dRecord.reg = true)
    (hfile : daemon.pciFilepath dRecord.cpu dRecord.device = some file)
    (hfd : (d.fdPci dRecord.cpu dRecord.device).Usable files file)
    (hwrite : files.pwrite 32 file dRecord.reg (dRecord.data.setWidth 32) = true) :
    ∃ d', pciWrite files daemon dRecord d = .ret { dRecord with errorcode := .noError } d' ∧
      d'.touched = .write file dRecord.reg ((dRecord.data.setWidth 32).setWidth 64) ::
        d.touched := by
  obtain ⟨d', hopen, htouched, hopened⟩ := pciOpen_usable (d := d) dRecord hs hd hpermits hfile hfd
  refine ⟨d'.touch (.write file dRecord.reg ((dRecord.data.setWidth 32).setWidth 64)), ?_,
    by simp [Daemon.touch, htouched]⟩
  unfold pciWrite
  rw [Prog.bind_of_done hopen, Prog.bind_of_done (Prog.get_apply d'),
    Prog.when_of_neg (fun h => h hopened), Prog.bind_pure_left, hfile, Prog.orUndefined,
    Prog.bind_pure_left, Prog.when_of_neg (by simp [hwrite])]
  rfl

section Record

variable (a : RegAccess) (core2node : ℕ → ℕ) (dev cpu reg : ℕ)

theorem record_device : (a.record core2node dev cpu reg).device = dev := by
  cases a <;> rfl

theorem record_reg : (a.record core2node dev cpu reg).reg = reg := by
  cases a <;> rfl

theorem record_cpu {dev : ℕ} (h0 : dev ≠ msrDev) :
    (a.record core2node dev cpu reg).cpu = core2node cpu := by
  cases a <;> exact if_pos h0

end Record

theorem pci_replies {dev cpu : ℕ} {v : Word} {core2node : ℕ → ℕ} {file : DeviceFile}
    (h0 : dev ≠ msrDev) (hs : core2node cpu < maxNumNodes) (hd : dev < maxNumPciDevices)
    (hpermits : daemon.permits dev reg = true)
    (hfile : daemon.pciFilepath (core2node cpu) dev = some file)
    (hfd : (d.fdPci (core2node cpu) dev).Usable files file)
    (h : a.answer files 32 file reg = some v) :
    Replies files daemon d (a.record core2node dev cpu reg) v (a.touch 32 file reg v) := by
  rw [← record_cpu a core2node cpu reg h0] at hs hfile hfd
  rw [← record_device a core2node dev cpu reg] at hd hpermits hfile hfd
  rw [← record_reg a core2node dev cpu reg] at hpermits
  cases a with
  | read =>
      obtain ⟨v', hread, rfl⟩ : ∃ v', files.pread 32 file reg = some v' ∧ v'.setWidth 64 = v := by
        simpa [RegAccess.answer] using h
      obtain ⟨d', hrun, htouched⟩ := pciRead_ret hs hd hpermits hfile hfd hread
      refine ⟨{ RegAccess.read.record core2node dev cpu reg with
        errorcode := .noError, data := v'.setWidth 64 }, d', ?_, rfl, rfl, htouched⟩
      have hserve : serve files daemon (RegAccess.read.record core2node dev cpu reg) =
          Prog.call _ (pciRead files daemon (RegAccess.read.record core2node dev cpu reg)) :=
        if_neg h0
      rw [hserve]
      exact Prog.call_of_ret hrun
  | write data =>
      have hwrite : files.pwrite 32 file reg (data.setWidth 32) = true ∧ 0 = v := by
        simpa [RegAccess.answer] using h
      obtain ⟨hwrite, rfl⟩ := hwrite
      obtain ⟨d', hrun, htouched⟩ := pciWrite_ret hs hd hpermits hfile hfd hwrite
      refine ⟨{ (RegAccess.write data).record core2node dev cpu reg with
        errorcode := .noError, data := 0 }, d', ?_, rfl, rfl, htouched⟩
      have hserve : serve files daemon ((RegAccess.write data).record core2node dev cpu reg) =
          (Prog.call ((RegAccess.write data).record core2node dev cpu reg)
            (pciWrite files daemon ((RegAccess.write data).record core2node dev cpu reg)) >>=
              fun reply => pure { reply with data := 0 }) :=
        if_neg h0
      rw [hserve, Prog.bind_of_done (Prog.call_of_ret hrun)]
      rfl

theorem replies_of_answer {dev cpu : ℕ} {v : Word} {core2node : ℕ → ℕ}
    (h : daemonAnswer files daemon d a core2node dev cpu reg = some v) :
    ∃ file, intendedFile daemon core2node dev cpu = some file ∧
      Replies files daemon d (a.record core2node dev cpu reg) v
        (a.touch (accessWidth dev) file reg v) := by
  unfold daemonAnswer at h
  unfold intendedFile accessWidth
  by_cases h0 : dev = msrDev
  · subst h0
    rw [if_pos rfl] at h ⊢
    simp only [Option.ite_none_right_eq_some] at h
    obtain ⟨⟨hc, hfd, hallowed⟩, h⟩ := h
    exact ⟨_, rfl, msr_replies hc hfd hallowed h⟩
  · rw [if_neg h0] at h ⊢
    simp only [Option.ite_none_right_eq_some, Option.bind_eq_some_iff] at h
    obtain ⟨⟨hs, hd, hpermits⟩, file, hfile, hfd, h⟩ := h
    exact ⟨file, hfile, by rw [if_neg h0]; exact pci_replies h0 hs hd hpermits hfile hfd h⟩

/-- A reply without an error that no access led to. -/
def Unreached (d : Daemon) (reply : AccessDataRecord) (d' : Daemon) : Prop :=
  reply.errorcode = .noError → d'.touched = d.touched

section Unreached

variable {dRecord : AccessDataRecord}

theorem msrRead_unreached (h : dRecord.cpu < maxNumThreads → d.fdMsr dRecord.cpu = .opened →
    daemon.allowed dRecord.reg = true → files.pread 64 (.msr dRecord.cpu) dRecord.reg = none) :
    (msrRead files daemon dRecord).wp (fun _ _ => False) (Unreached d) d := by
  simp only [msrRead, Prog.wp_bind, Prog.wp_get, Prog.wp_when, Prog.wp_halt, Prog.wp_ret]
  refine ⟨fun _ => trivial, fun hc => ⟨fun _ => by simp [Unreached], fun hfd =>
    ⟨fun _ => by simp [Unreached], fun hallowed => ?_⟩⟩⟩
  rw [h (Nat.lt_of_not_le hc) (not_not.mp hfd) (by simpa using hallowed)]
  simp [Unreached]

theorem msrWrite_unreached (h : dRecord.cpu < maxNumThreads → d.fdMsr dRecord.cpu = .opened →
    daemon.allowed dRecord.reg = true →
      files.pwrite 64 (.msr dRecord.cpu) dRecord.reg dRecord.data = false) :
    (msrWrite files daemon dRecord).wp (fun _ _ => False) (Unreached d) d := by
  simp only [msrWrite, Prog.wp_bind, Prog.wp_get, Prog.wp_when, Prog.wp_halt, Prog.wp_ret,
    Prog.wp_modify]
  refine ⟨fun _ => trivial, fun hc => ⟨fun _ => by simp [Unreached], fun hfd =>
    ⟨fun _ => by simp [Unreached], fun hallowed => ⟨fun _ => by simp [Unreached],
      fun hwrite => ?_⟩⟩⟩⟩
  rw [h (Nat.lt_of_not_le hc) (not_not.mp hfd) (by simpa using hallowed)] at hwrite
  exact absurd rfl hwrite

theorem pciRead_unreached (h : ∀ file, dRecord.cpu < maxNumNodes →
    dRecord.device < maxNumPciDevices → daemon.permits dRecord.device dRecord.reg = true →
      daemon.pciFilepath dRecord.cpu dRecord.device = some file →
        (d.fdPci dRecord.cpu dRecord.device).Usable files file →
          files.pread 32 file dRecord.reg = none) :
    (pciRead files daemon dRecord).wp (fun _ _ => False) (Unreached d) d := by
  simp only [pciRead, Prog.wp_bind, Prog.wp_get, Prog.wp_when, Prog.wp_ret, Prog.wp_orUndefined]
  refine Prog.wp_mono (pciOpen_wp { dRecord with data := 0 }) ?_ fun _ _ hr hok => absurd hok hr.1
  rintro _ d' ⟨htouched, hs, hd, hpermits, ⟨hopened, husable⟩ | ⟨_, hfailed⟩⟩
  · refine ⟨fun _ _ => htouched, fun _ file hfile => ?_⟩
    rw [h file hs hd hpermits hfile (husable file hfile)]
    simp [Unreached]
  · exact ⟨fun _ _ => htouched, fun hfd => absurd (not_not.mp hfd) (by simp [hfailed])⟩

theorem pciWrite_unreached (h : ∀ file, dRecord.cpu < maxNumNodes →
    dRecord.device < maxNumPciDevices → daemon.permits dRecord.device dRecord.reg = true →
      daemon.pciFilepath dRecord.cpu dRecord.device = some file →
        (d.fdPci dRecord.cpu dRecord.device).Usable files file →
          files.pwrite 32 file dRecord.reg (dRecord.data.setWidth 32) = false) :
    (pciWrite files daemon dRecord).wp (fun _ _ => False) (Unreached d) d := by
  simp only [pciWrite, Prog.wp_bind, Prog.wp_get, Prog.wp_when, Prog.wp_ret, Prog.wp_orUndefined,
    Prog.wp_modify]
  refine Prog.wp_mono (pciOpen_wp dRecord) ?_ fun _ _ hr hok => absurd hok hr.1
  rintro _ d' ⟨htouched, hs, hd, hpermits, ⟨hopened, husable⟩ | ⟨_, hfailed⟩⟩
  · refine ⟨fun _ _ => htouched, fun _ file hfile => ⟨fun _ => by simp [Unreached],
      fun hwrite => ?_⟩⟩
    rw [h file hs hd hpermits hfile (husable file hfile)] at hwrite
    exact absurd rfl hwrite
  · exact ⟨fun _ _ => htouched, fun hfd => absurd (not_not.mp hfd) (by simp [hfailed])⟩

end Unreached

theorem serve_unreached {dev cpu : ℕ} {core2node : ℕ → ℕ}
    (h : daemonAnswer files daemon d a core2node dev cpu reg = none) :
    (serve files daemon (a.record core2node dev cpu reg)).wp (Unreached d) (fun _ _ => True) d := by
  unfold daemonAnswer at h
  by_cases h0 : dev = msrDev
  · subst h0
    rw [if_pos rfl] at h
    have hnone : cpu < maxNumThreads → d.fdMsr cpu = .opened → daemon.allowed reg = true →
        a.answer files 64 (.msr cpu) reg = none := fun hc hfd hallowed => by
      simpa only [hc, hfd, hallowed, and_self, if_true] using h
    cases a with
    | read =>
        show (Prog.call _ (msrRead files daemon _) : DaemonProg _).wp _ _ d
        rw [Prog.wp_call]
        refine Prog.wp_mono (msrRead_unreached fun hc hfd hallowed => ?_) (fun _ _ h => h.elim)
          fun _ _ h => h
        exact Option.map_eq_none_iff.mp (hnone hc hfd hallowed)
    | write data =>
        show (Prog.call _ (msrWrite files daemon _) >>= _ : DaemonProg _).wp _ _ d
        rw [Prog.wp_bind, Prog.wp_call]
        refine Prog.wp_mono (msrWrite_unreached fun hc hfd hallowed => ?_) (fun _ _ h => h.elim)
          fun _ _ h => h
        have hwrite : files.pwrite 64 (.msr cpu) reg data = false := by
          simpa [RegAccess.answer] using hnone hc hfd hallowed
        exact hwrite
  · rw [if_neg h0] at h
    have hcpu := record_cpu a core2node cpu reg h0
    have hdevice := record_device a core2node dev cpu reg
    have hreg := record_reg a core2node dev cpu reg
    have hnone : ∀ file, core2node cpu < maxNumNodes → dev < maxNumPciDevices →
        daemon.permits dev reg = true → daemon.pciFilepath (core2node cpu) dev = some file →
          (d.fdPci (core2node cpu) dev).Usable files file → a.answer files 32 file reg = none := by
      intro file hs hd hpermits hfile hfd
      simpa only [hs, hd, hpermits, hfile, hfd, and_self, if_true, Option.bind_some] using h
    cases a with
    | read =>
        have hserve : serve files daemon (RegAccess.read.record core2node dev cpu reg) =
            Prog.call _ (pciRead files daemon (RegAccess.read.record core2node dev cpu reg)) :=
          if_neg h0
        rw [hserve, Prog.wp_call]
        refine Prog.wp_mono (pciRead_unreached fun file hs hd hpermits hfile hfd => ?_)
          (fun _ _ h => h.elim) fun _ _ h => h
        rw [hcpu] at hs hfile hfd
        exact Option.map_eq_none_iff.mp (hnone file hs hd hpermits hfile hfd)
    | write data =>
        have hserve : serve files daemon ((RegAccess.write data).record core2node dev cpu reg) =
            (Prog.call ((RegAccess.write data).record core2node dev cpu reg)
              (pciWrite files daemon ((RegAccess.write data).record core2node dev cpu reg)) >>=
                fun reply => pure { reply with data := 0 }) :=
          if_neg h0
        rw [hserve, Prog.wp_bind, Prog.wp_call]
        refine Prog.wp_mono (pciWrite_unreached fun file hs hd hpermits hfile hfd => ?_)
          (fun _ _ h => h.elim) fun _ _ h => h
        rw [hcpu] at hs hfile hfd
        have hwrite : files.pwrite 32 file reg (data.setWidth 32) = false := by
          simpa [RegAccess.answer] using hnone file hs hd hpermits hfile hfd
        exact hwrite

theorem not_replies_of_none {dev cpu : ℕ} {v : Word} {t : Touch} {core2node : ℕ → ℕ}
    (h : daemonAnswer files daemon d a core2node dev cpu reg = none) :
    ¬Replies files daemon d (a.record core2node dev cpu reg) v t := by
  rintro ⟨reply, d', hrun, hok, _, htouched⟩
  have hsame : d'.touched = d.touched := Prog.wp_done (serve_unreached h) hrun hok
  exact List.cons_ne_self t d.touched (htouched.symm.trans hsame)

/-! ## The two compared -/

/-- **Direct access**: it returns, without an error only after it
reached the register of the request and with the value read there; and where
the daemon reaches a register, it reaches the same one and returns the same. -/
def SameRegister (files : DeviceFiles) (setup : DirectSetup) (daemon : DaemonSetup) (x : Direct)
    (d : Daemon) (a : RegAccess) (dev cpu reg : ℕ) : Prop :=
  ∃ code data x', (a.direct files setup dev cpu reg : Prog Int Direct _) x = .done (code, data) x' ∧
    (0 ≤ code → ∃ file, intendedFile daemon setup.core2node dev cpu = some file ∧
      x'.touched = a.touch (accessWidth dev) file reg data :: x.touched) ∧
    ∀ v t, Replies files daemon d (a.record setup.core2node dev cpu reg) v t →
      code = 0 ∧ data = v ∧ x'.touched = t :: x.touched

/-- When it holds: a CPU's registers can be reached; a PCI device is found, and the
access with device and socket exchanged goes to the device file of the request,
or neither it nor the daemon reaches anything. -/
def ReachesSame (files : DeviceFiles) (setup : DirectSetup) (daemon : DaemonSetup) (x : Direct)
    (d : Daemon) (a : RegAccess) (dev cpu reg : ℕ) : Prop :=
  if dev = msrDev then MsrServed setup x a cpu reg
  else Found setup x dev (setup.core2node cpu) ∧ setup.core2node cpu < maxNumPciDevices ∧
    ∀ devices, setup.pciDevices = some devices →
      if (exchangedAnswer files setup devices x a dev cpu reg).isSome then
        daemon.pciFilepath (setup.core2node cpu) dev = some (exchangedFile setup devices dev cpu)
      else daemonAnswer files daemon d a setup.core2node dev cpu reg = none

theorem touch_file_eq {w : ℕ} {file file' : DeviceFile} {v v' : Word}
    (h : a.touch w file reg v = a.touch w file' reg v') : file = file' := by
  cases a with
  | read => exact (Touch.read.inj h).1
  | write data => exact (Touch.write.inj h).1

theorem Replies.unique {dRecord : AccessDataRecord} {v v' : Word} {t t' : Touch}
    (h : Replies files daemon d dRecord v t) (h' : Replies files daemon d dRecord v' t') :
    v = v' ∧ t = t' := by
  obtain ⟨reply, d1, hrun, _, rfl, htouched⟩ := h
  obtain ⟨reply', d2, hrun', _, rfl, htouched'⟩ := h'
  obtain ⟨rfl, rfl⟩ := Prog.Outcome.done.inj (hrun.symm.trans hrun')
  exact ⟨rfl, (List.cons.inj (htouched.symm.trans htouched')).1⟩

theorem answer_of_replies {dev cpu : ℕ} {core2node : ℕ → ℕ} {v : Word} {t : Touch}
    (h : Replies files daemon d (a.record core2node dev cpu reg) v t) :
    daemonAnswer files daemon d a core2node dev cpu reg = some v ∧
      ∃ file, intendedFile daemon core2node dev cpu = some file ∧
        t = a.touch (accessWidth dev) file reg v := by
  cases hanswer : daemonAnswer files daemon d a core2node dev cpu reg with
  | none => exact absurd h (not_replies_of_none hanswer)
  | some w =>
      obtain ⟨file, hfile, hw⟩ := replies_of_answer hanswer
      obtain ⟨rfl, rfl⟩ := h.unique hw
      exact ⟨rfl, file, hfile, rfl⟩

/-- `rdpmc` delivers the register it stands for. -/
def RdpmcFaithful (files : DeviceFiles) (setup : DirectSetup) : Prop :=
  ∀ cpu reg counter v, setup.rdpmcIndex reg = some counter →
    files.pread 64 (.msr cpu) reg = some v → files.rdpmc cpu counter = v

theorem msrAnswer_of_answer {cpu : ℕ} {v : Word} (hrdpmc : RdpmcFaithful files setup)
    (h : a.answer files 64 (.msr cpu) reg = some v) :
    msrAnswer files setup a cpu reg = some v := by
  cases a with
  | write data => exact h
  | read =>
      unfold msrAnswer
      cases hindex : setup.rdpmcIndex reg with
      | none => exact h
      | some counter =>
          have hread : files.pread 64 (.msr cpu) reg = some v := by
            simpa [RegAccess.answer] using h
          exact congrArg some (hrdpmc cpu reg counter v hindex hread)

theorem sameRegister_msr {cpu : ℕ} (hrdpmc : RdpmcFaithful files setup) :
    SameRegister files setup daemon x d a msrDev cpu reg ↔ MsrServed setup x a cpu reg := by
  constructor
  · rintro ⟨code, data, x', hrun, hreached, _⟩
    by_contra h
    obtain ⟨hresult, rfl⟩ := Prog.Outcome.done.inj
      ((direct_msr_of_not_served (ρ := Int) h).symm.trans hrun)
    obtain ⟨rfl, rfl⟩ := Prod.mk.inj hresult
    obtain ⟨file, _, htouched⟩ := hreached le_rfl
    exact List.cons_ne_self _ _ htouched.symm
  · intro h
    have hends : EndsWith a 64 (.msr cpu) reg
        (a.direct files setup msrDev cpu reg : Prog Int Direct _) x
        (msrAnswer files setup a cpu reg) := direct_msr_endsWith h
    obtain ⟨code, data, x', hrun, hsome, hnone⟩ := hends
    refine ⟨code, data, x', hrun, fun hcode => ?_, fun v t hreplies => ?_⟩
    · cases hanswer : msrAnswer files setup a cpu reg with
      | none => exact absurd (hnone hanswer).1 hcode.not_gt
      | some v =>
          obtain ⟨_, rfl, htouched⟩ := hsome v hanswer
          exact ⟨_, rfl, htouched⟩
    · obtain ⟨hanswer, file, hfile, rfl⟩ := answer_of_replies hreplies
      obtain rfl : DeviceFile.msr cpu = file := Option.some.inj hfile
      unfold daemonAnswer at hanswer
      rw [if_pos rfl] at hanswer
      exact hsome v (msrAnswer_of_answer hrdpmc (Option.ite_none_right_eq_some.mp hanswer).2)

/-- A socket number beyond the device table indexes it out of bounds. -/
theorem direct_outOfBounds {dev cpu : ℕ} (h0 : dev ≠ msrDev)
    (h : Found setup x dev (setup.core2node cpu)) (hs : maxNumPciDevices ≤ setup.core2node cpu) :
    (a.direct files setup dev cpu reg : Prog ρ Direct _) x = .halt .outOfBounds := by
  have hne : setup.core2node cpu ≠ msrDev := by
    intro heq
    rw [heq] at hs
    exact absurd hs (by decide)
  have hopen : ∀ {ρ' : Type} (r : Int → ρ'),
      accessX86PciOpen files setup (setup.core2node cpu) dev r x = .halt .outOfBounds := by
    intro ρ' r
    unfold accessX86PciOpen
    rw [Prog.bind_of_done (Prog.get_apply x), Prog.when_of_pos (Or.inr hs)]
    rfl
  rw [direct_of_found h0 h]
  cases a with
  | read =>
      refine Prog.call_of_halt ?_
      unfold accessX86PciRead
      rw [Prog.when_of_neg hne, Prog.bind_pure_left]
      exact Prog.bind_of_halt (hopen _)
  | write data =>
      refine Prog.bind_of_halt (Prog.call_of_halt ?_)
      unfold accessX86PciWrite
      rw [Prog.when_of_neg hne, Prog.bind_pure_left]
      exact Prog.bind_of_halt (hopen _)

theorem reachesSame_of_sameRegister {dev cpu : ℕ} (h0 : dev ≠ msrDev)
    (h : SameRegister files setup daemon x d a dev cpu reg) :
    Found setup x dev (setup.core2node cpu) ∧ setup.core2node cpu < maxNumPciDevices ∧
      ∀ devices, setup.pciDevices = some devices →
        if (exchangedAnswer files setup devices x a dev cpu reg).isSome then
          daemon.pciFilepath (setup.core2node cpu) dev = some (exchangedFile setup devices dev cpu)
        else daemonAnswer files daemon d a setup.core2node dev cpu reg = none := by
  obtain ⟨code, data, x', hrun, hreached, hdaemon⟩ := h
  have hfound : Found setup x dev (setup.core2node cpu) := by
    by_contra hnot
    obtain ⟨k, hk⟩ := direct_of_not_found (ρ := Int) a reg h0 hnot
    rw [hk] at hrun
    cases hrun
  have hs : setup.core2node cpu < maxNumPciDevices := by
    by_contra hnot
    rw [direct_outOfBounds h0 hfound (Nat.le_of_not_lt hnot)] at hrun
    cases hrun
  refine ⟨hfound, hs, fun devices hdevices => ?_⟩
  obtain ⟨code', data', x'', hrun', hsome, hnone⟩ :=
    direct_endsWith (ρ := Int) a reg h0 hfound hdevices hs
  obtain ⟨hresult, rfl⟩ := Prog.Outcome.done.inj (hrun'.symm.trans hrun)
  obtain ⟨rfl, rfl⟩ := Prod.mk.inj hresult
  cases hanswer : exchangedAnswer files setup devices x a dev cpu reg with
  | some v =>
      obtain ⟨rfl, rfl, htouched⟩ := hsome v hanswer
      obtain ⟨file, hfile, htouched'⟩ := hreached le_rfl
      unfold intendedFile at hfile
      unfold accessWidth at htouched'
      rw [if_neg h0] at hfile htouched'
      have htouch := (List.cons.inj (htouched.symm.trans htouched')).1
      rw [Option.isSome_some, if_pos rfl, hfile, touch_file_eq htouch]
  | none =>
      rw [Option.isSome_none, if_neg (by decide)]
      cases hdanswer : daemonAnswer files daemon d a setup.core2node dev cpu reg with
      | none => rfl
      | some v =>
          obtain ⟨file, _, hreplies⟩ := replies_of_answer hdanswer
          have hcode := (hdaemon v _ hreplies).1
          exact absurd (hnone hanswer).1 (by omega)

theorem sameRegister_of_reachesSame {dev cpu : ℕ} (h0 : dev ≠ msrDev)
    (hfound : Found setup x dev (setup.core2node cpu))
    (hs : setup.core2node cpu < maxNumPciDevices)
    (h : ∀ devices, setup.pciDevices = some devices →
      if (exchangedAnswer files setup devices x a dev cpu reg).isSome then
        daemon.pciFilepath (setup.core2node cpu) dev = some (exchangedFile setup devices dev cpu)
      else daemonAnswer files daemon d a setup.core2node dev cpu reg = none) :
    SameRegister files setup daemon x d a dev cpu reg := by
  obtain ⟨devices, hdevices⟩ := Option.ne_none_iff_exists'.mp hfound.1
  have hcond := h devices hdevices
  obtain ⟨code, data, x', hrun, hsome, hnone⟩ :=
    direct_endsWith (ρ := Int) a reg h0 hfound hdevices hs
  cases hanswer : exchangedAnswer files setup devices x a dev cpu reg with
  | some v =>
      rw [hanswer, Option.isSome_some, if_pos rfl] at hcond
      obtain ⟨rfl, rfl, htouched⟩ := hsome v hanswer
      have hfile : intendedFile daemon setup.core2node dev cpu =
          some (exchangedFile setup devices dev cpu) := by
        unfold intendedFile
        rwa [if_neg h0]
      have hwidth : accessWidth dev = 32 := if_neg h0
      refine ⟨0, data, x', hrun, fun _ => ⟨_, hfile, hwidth ▸ htouched⟩, fun w t hreplies => ?_⟩
      obtain ⟨hdanswer, file, hfile', rfl⟩ := answer_of_replies hreplies
      obtain rfl := Option.some.inj (hfile.symm.trans hfile')
      -- both ask the kernel the same
      have hw : a.answer files 32 (exchangedFile setup devices dev cpu) reg = some w := by
        unfold daemonAnswer at hdanswer
        rw [if_neg h0] at hdanswer
        have hbind := (Option.ite_none_right_eq_some.mp hdanswer).2
        rw [hcond, Option.bind_some] at hbind
        exact (Option.ite_none_right_eq_some.mp hbind).2
      have hv := (Option.ite_none_right_eq_some.mp hanswer).2
      obtain rfl := Option.some.inj (hv.symm.trans hw)
      exact ⟨rfl, rfl, hwidth ▸ htouched⟩
  | none =>
      rw [hanswer, Option.isSome_none, if_neg (by decide)] at hcond
      refine ⟨code, data, x', hrun, fun hcode => absurd (hnone hanswer).1 hcode.not_gt,
        fun w t hreplies => ?_⟩
      exact absurd hreplies (not_replies_of_none hcond)

/-- **Direct and daemon access agree** exactly where the exchange of device and
socket does no harm. -/
theorem sameRegister_iff {dev cpu : ℕ} (hrdpmc : RdpmcFaithful files setup) :
    SameRegister files setup daemon x d a dev cpu reg ↔
      ReachesSame files setup daemon x d a dev cpu reg := by
  unfold ReachesSame
  by_cases h0 : dev = msrDev
  · subst h0
    rw [if_pos rfl]
    exact sameRegister_msr hrdpmc
  · rw [if_neg h0]
    exact ⟨reachesSame_of_sameRegister h0,
      fun ⟨hfound, hs, h⟩ => sameRegister_of_reachesSame h0 hfound hs h⟩

/-- Device files that can all be accessed. -/
def goodFiles : DeviceFiles where
  opens _ := true
  pread _ _ _ := some 7
  pwrite _ _ _ _ := true
  rdpmc _ _ := 7
  uninit := 0

/-- Every device has a path, CPU 0 is on socket 0 and CPU 1 on socket 1. -/
def goodDevices (_ : PciDeviceIndex) : PciDevice := { type := .imc, path := some "10.0" }

def goodDirect : DirectSetup where
  core2node := id
  socketBus _ := "ff/"
  pciDevices := some goodDevices
  rdpmcWorksPmc := true
  rdpmcWorksFixed := false

def goodDaemon : DaemonSetup where
  allowed _ := true
  allowedPci := none
  socketBus _ := some "ff/"
  pciDevicesDaemon := some goodDevices

/-- All devices are there, and none is opened yet. -/
def unopenedDirect : Direct where
  fdMsr _ := .opened
  fdPci _ _ := .unopened
  online _ := true

def unopenedDaemon : Daemon where
  fdMsr _ := .opened
  fdPci _ _ := .unopened

theorem sameRegister_iff_socketOne :
    SameRegister goodFiles goodDirect goodDaemon unopenedDirect unopenedDaemon .read 1 1 0xF4 ↔
      ReachesSame goodFiles goodDirect goodDaemon unopenedDirect unopenedDaemon .read 1 1 0xF4 :=
  sameRegister_iff fun _ _ _ v _ hread => by
    have hv : (7 : Word) = v := Option.some.inj hread
    exact hv

/-- On socket 0 no PCI register is reached. -/
theorem not_sameRegister_socketZero :
    ¬SameRegister goodFiles goodDirect goodDaemon unopenedDirect unopenedDaemon .read 5 0 0xF4 := by
  intro h
  have hcond := (reachesSame_of_sameRegister (by decide) h).2.2 goodDevices rfl
  have hnone : exchangedAnswer goodFiles goodDirect goodDevices unopenedDirect .read 5 0 0xF4 =
      none := by decide
  rw [hnone, Option.isSome_none, if_neg (by decide)] at hcond
  exact absurd hcond (by decide)

end Likwid
