import Likwid.AccessDaemon
import Likwid.Lib.Run

/-!
# The daemon's answers over many requests

A PCI device file is opened on first use, and a failed `open` is remembered as a
negative descriptor. Only `FD_PCI == -2` is answered with `ERR_NODEV`, so the
requests after the failed one are answered without an error though nothing is
accessed (`truthful_of_requests`). Neither CPU nor device of a record are
checked before they index the tables (`handledSafely_iff`).
-/

namespace Likwid

/-- A descriptor of this file is open or can be opened. -/
def Fd.Usable (files : DeviceFiles) (fd : Fd) (file : DeviceFile) : Prop :=
  fd = .opened ∨ fd = .unopened ∧ files.opens file = true

instance Fd.decidableUsable (files : DeviceFiles) (fd : Fd) (file : DeviceFile) :
    Decidable (fd.Usable files file) :=
  inferInstanceAs (Decidable (_ ∨ _))

/-- The daemon lets the register of a PCI device be accessed. -/
def DaemonSetup.permits (daemon : DaemonSetup) (dev reg : ℕ) : Bool :=
  match daemon.allowedPci, daemon.pciDevicesDaemon with
  | none, _ => true
  | some _, none => false
  | some allowedPci, some devices => allowedPci (devices dev).type reg

variable {files : DeviceFiles} {daemon : DaemonSetup} {d : Daemon}

theorem checkAllowedPci_of_permits {dRecord : AccessDataRecord}
    (hpermits : daemon.permits dRecord.device dRecord.reg = true) :
    checkAllowedPci daemon dRecord d = .done () d := by
  unfold checkAllowedPci
  unfold DaemonSetup.permits at hpermits
  cases hpci : daemon.allowedPci with
  | none => rfl
  | some allowedPci =>
      cases hdevices : daemon.pciDevicesDaemon with
      | none => simp [hpci, hdevices] at hpermits
      | some devices =>
          simp only [hpci, hdevices] at hpermits
          dsimp only
          rw [Prog.orUndefined, Prog.bind_pure_left, Prog.when_of_neg (by simp [hpermits])]
          rfl

theorem checkAllowedPci_wp (dRecord : AccessDataRecord) :
    (checkAllowedPci daemon dRecord).wp
      (fun _ d' => d' = d ∧ daemon.permits dRecord.device dRecord.reg = true)
      (fun reply d' => d' = d ∧ reply.errorcode ≠ .noError ∧
        ¬daemon.permits dRecord.device dRecord.reg = true) d := by
  unfold checkAllowedPci DaemonSetup.permits
  cases hpci : daemon.allowedPci with
  | none => exact ⟨rfl, rfl⟩
  | some allowedPci =>
      simp only [Prog.wp_bind, Prog.wp_orUndefined, Prog.wp_when, Prog.wp_ret]
      intro devices hdevices
      simp only [hdevices]
      exact ⟨fun h => ⟨trivial, by simp, by simpa using h⟩, fun h => ⟨trivial, by simpa using h⟩⟩

theorem pciOpen_usable (dRecord : AccessDataRecord) {file : DeviceFile}
    (hs : dRecord.cpu < maxNumNodes) (hd : dRecord.device < maxNumPciDevices)
    (hpermits : daemon.permits dRecord.device dRecord.reg = true)
    (hfile : daemon.pciFilepath dRecord.cpu dRecord.device = some file)
    (hfd : (d.fdPci dRecord.cpu dRecord.device).Usable files file) :
    ∃ d', pciOpen files daemon dRecord d = .done () d' ∧ d'.touched = d.touched ∧
      d'.fdPci dRecord.cpu dRecord.device = .opened := by
  have hin : ¬(maxNumNodes ≤ dRecord.cpu ∨ maxNumPciDevices ≤ dRecord.device) := by
    rintro (hge | hge)
    · exact Nat.not_lt.mpr hge hs
    · exact Nat.not_lt.mpr hge hd
  have hallowed := checkAllowedPci_of_permits (d := d) hpermits
  unfold pciOpen
  rw [Prog.bind_of_done (Prog.get_apply d), Prog.when_of_neg hin, Prog.bind_pure_left]
  rcases hfd with hfd | ⟨hfd, hopen⟩
  · refine ⟨d, ?_, rfl, hfd⟩
    rw [Prog.when_of_neg (by simp [hfd]), Prog.bind_pure_left, Prog.bind_of_done hallowed,
      Prog.when_of_neg (by simp [hfd])]
    rfl
  · refine ⟨d.setFdPci dRecord.cpu dRecord.device .opened, ?_, rfl, by simp [Daemon.setFdPci]⟩
    rw [Prog.when_of_neg (by simp [hfd]), Prog.bind_pure_left, Prog.bind_of_done hallowed,
      Prog.when_of_pos hfd, hfile, Prog.orUndefined, Prog.bind_pure_left,
      Prog.when_of_neg (by simp [hopen]), Prog.bind_pure_left]
    rfl

/-- A PCI access on a device whose file failed to open before. -/
def Stale (daemon : DaemonSetup) (d : Daemon) (dRecord : AccessDataRecord) : Prop :=
  d.fdPci dRecord.cpu dRecord.device = .failed ∧
    daemon.permits dRecord.device dRecord.reg = true

theorem not_stale_of_usable {dRecord : AccessDataRecord} {file : DeviceFile}
    (h : (d.fdPci dRecord.cpu dRecord.device).Usable files file) : ¬Stale daemon d dRecord := by
  rintro ⟨hfailed, _⟩
  rcases h with h | ⟨h, _⟩
  · exact absurd (hfailed.symm.trans h) (by decide)
  · exact absurd (hfailed.symm.trans h) (by decide)

/-- Before the access nothing is reached, and it is made only with a usable
descriptor. -/
theorem pciOpen_wp (dRecord : AccessDataRecord) :
    (pciOpen files daemon dRecord).wp
      (fun _ d' => d'.touched = d.touched ∧ dRecord.cpu < maxNumNodes ∧
        dRecord.device < maxNumPciDevices ∧
        daemon.permits dRecord.device dRecord.reg = true ∧
        ((d'.fdPci dRecord.cpu dRecord.device = .opened ∧
            ∀ file, daemon.pciFilepath dRecord.cpu dRecord.device = some file →
              (d.fdPci dRecord.cpu dRecord.device).Usable files file) ∨
          d.fdPci dRecord.cpu dRecord.device = .failed ∧
            d'.fdPci dRecord.cpu dRecord.device = .failed))
      (fun reply d' => reply.errorcode ≠ .noError ∧ d'.touched = d.touched ∧
        ¬Stale daemon d dRecord) d := by
  unfold pciOpen Stale
  simp only [Prog.wp_bind, Prog.wp_get, Prog.wp_when, Prog.wp_halt, Prog.wp_ret]
  refine ⟨fun _ => trivial, fun hin => ⟨fun habsent => ⟨by simp, trivial, by simp [habsent]⟩,
    fun hthere => ?_⟩⟩
  have hs : dRecord.cpu < maxNumNodes := Nat.lt_of_not_le fun hge => hin (Or.inl hge)
  have hd : dRecord.device < maxNumPciDevices := Nat.lt_of_not_le fun hge => hin (Or.inr hge)
  refine Prog.wp_mono (checkAllowedPci_wp dRecord) ?_ ?_
  · rintro _ d' ⟨rfl, hpermits⟩
    simp only [Prog.wp_orUndefined, Prog.wp_modify]
    refine ⟨fun hfd file hfile => ⟨fun _ => ⟨by simp, rfl, by simp [hfd]⟩, fun hopen => ?_⟩,
      fun hfd => ?_⟩
    · refine ⟨rfl, hs, hd, hpermits, Or.inl ⟨by simp [Daemon.setFdPci], fun file' hfile' => ?_⟩⟩
      obtain rfl : file = file' := Option.some.inj (hfile.symm.trans hfile')
      exact Or.inr ⟨hfd, by simpa using hopen⟩
    · refine ⟨trivial, hs, hd, hpermits, ?_⟩
      cases hfd' : d'.fdPci dRecord.cpu dRecord.device with
      | absent => exact absurd hfd' hthere
      | failed => exact Or.inr ⟨rfl, rfl⟩
      | unopened => exact absurd hfd' hfd
      | opened => exact Or.inl ⟨rfl, fun _ _ => Or.inl rfl⟩
  · rintro reply d' ⟨rfl, herr, hforbidden⟩
    exact ⟨herr, rfl, fun hstale => hforbidden hstale.2⟩

/-! ## Truthful answers -/

/-- A request served: what the kernel answered during it, the reply, and the
accesses that reached a register. -/
structure Served where
  files : DeviceFiles
  request : AccessDataRecord
  reply : AccessDataRecord
  touches : List Touch

/-- The daemon serves a request; the kernel may answer differently every time. -/
def DaemonStep (daemon : DaemonSetup) (d : Daemon) (e : Served) (d' : Daemon) : Prop :=
  serve e.files daemon e.request d = .done e.reply d' ∧ d'.touched = e.touches ++ d.touched

/-- The device file was read with success, and the reply carries what was read, or
it was written with success. -/
def Served.Accessed (e : Served) (file : DeviceFile) : Prop :=
  match e.request.type with
  | .daemonRead =>
      ∃ data, e.files.pread 32 file e.request.reg = some data ∧
        e.reply.data = data.setWidth 64 ∧
        e.touches = [.read file e.request.reg (data.setWidth 64)]
  | .daemonWrite =>
      e.files.pwrite 32 file e.request.reg (e.request.data.setWidth 32) = true ∧
        e.touches = [.write file e.request.reg ((e.request.data.setWidth 32).setWidth 64)]
  | _ => True

/-- A read or write of a PCI device. -/
def AccessDataRecord.IsPci (dRecord : AccessDataRecord) : Prop :=
  dRecord.device ≠ msrDev ∧ (dRecord.type = .daemonRead ∨ dRecord.type = .daemonWrite)

/-- **One request served**: without an error the access was made. -/
def Served.Truthful (daemon : DaemonSetup) (e : Served) : Prop :=
  e.request.IsPci → e.reply.errorcode = .noError →
    ∃ file, daemon.pciFilepath e.request.cpu e.request.device = some file ∧ e.Accessed file

/-- How a PCI access ends: a stale descriptor hides that nothing was accessed. -/
def Served.Ends (daemon : DaemonSetup) (d : Daemon) (e : Served) : Prop :=
  Stale daemon d e.request ∧ e.reply.errorcode = .noError ∧ e.touches = [] ∨
    ¬Stale daemon d e.request ∧ (e.reply.errorcode = .noError →
      ∃ file, daemon.pciFilepath e.request.cpu e.request.device = some file ∧ e.Accessed file)

variable {dRecord : AccessDataRecord}

theorem pciRead_ends (htype : dRecord.type = .daemonRead) :
    (pciRead files daemon dRecord).wp (fun _ _ => False)
      (fun reply d' => ∃ touches, d'.touched = touches ++ d.touched ∧
        Served.Ends daemon d ⟨files, dRecord, reply, touches⟩) d := by
  simp only [pciRead, Prog.wp_bind, Prog.wp_get, Prog.wp_when, Prog.wp_ret, Prog.wp_orUndefined]
  refine Prog.wp_mono (pciOpen_wp { dRecord with data := 0 }) ?_ ?_
  · rintro _ d' ⟨htouched, -, -, hpermits, ⟨hopened, husable⟩ | ⟨hfailed, hfailed'⟩⟩
    · refine ⟨fun hfd => absurd hopened hfd, fun _ file hfile => ?_⟩
      have hfresh : ¬Stale daemon d dRecord := not_stale_of_usable (husable file hfile)
      cases hread : files.pread 32 file dRecord.reg with
      | none => exact ⟨[], htouched, Or.inr ⟨hfresh, fun hok => by cases hok⟩⟩
      | some data =>
          refine ⟨[.read file dRecord.reg (data.setWidth 64)], ?_, Or.inr ⟨hfresh, fun _ => ?_⟩⟩
          · exact congrArg _ htouched
          · refine ⟨file, hfile, ?_⟩
            simp only [Served.Accessed, htype]
            exact ⟨data, hread, rfl, rfl⟩
    · exact ⟨fun _ => ⟨[], htouched, Or.inl ⟨⟨hfailed, hpermits⟩, rfl, rfl⟩⟩,
        fun hfd => absurd (not_not.mp hfd) (by simp [hfailed'])⟩
  · rintro reply d' ⟨herr, htouched, hfresh⟩
    exact ⟨[], htouched, Or.inr ⟨hfresh, fun hok => absurd hok herr⟩⟩

theorem pciWrite_ends (htype : dRecord.type = .daemonWrite) :
    (pciWrite files daemon dRecord).wp (fun _ _ => False)
      (fun reply d' => ∃ touches, d'.touched = touches ++ d.touched ∧
        Served.Ends daemon d ⟨files, dRecord, { reply with data := 0 }, touches⟩) d := by
  simp only [pciWrite, Prog.wp_bind, Prog.wp_get, Prog.wp_when, Prog.wp_ret, Prog.wp_orUndefined,
    Prog.wp_modify]
  refine Prog.wp_mono (pciOpen_wp dRecord) ?_ ?_
  · rintro _ d' ⟨htouched, -, -, hpermits, ⟨hopened, husable⟩ | ⟨hfailed, hfailed'⟩⟩
    · refine ⟨fun hfd => absurd hopened hfd, fun _ file hfile => ⟨fun _ => ?_, fun hwrite => ?_⟩⟩
      all_goals have hfresh : ¬Stale daemon d dRecord := not_stale_of_usable (husable file hfile)
      · exact ⟨[], htouched, Or.inr ⟨hfresh, fun hok => by cases hok⟩⟩
      · refine ⟨[.write file dRecord.reg ((dRecord.data.setWidth 32).setWidth 64)], ?_,
          Or.inr ⟨hfresh, fun _ => ?_⟩⟩
        · exact congrArg _ htouched
        · refine ⟨file, hfile, ?_⟩
          simp only [Served.Accessed, htype]
          exact ⟨by simpa using hwrite, trivial⟩
    · exact ⟨fun _ => ⟨[], htouched, Or.inl ⟨⟨hfailed, hpermits⟩, rfl, rfl⟩⟩,
        fun hfd => absurd (not_not.mp hfd) (by simp [hfailed'])⟩
  · rintro reply d' ⟨herr, htouched, hfresh⟩
    exact ⟨[], htouched, Or.inr ⟨hfresh, fun hok => absurd hok herr⟩⟩

theorem serve_ends (hpci : dRecord.IsPci) :
    (serve files daemon dRecord).wp
      (fun reply d' => ∃ touches, d'.touched = touches ++ d.touched ∧
        Served.Ends daemon d ⟨files, dRecord, reply, touches⟩) (fun _ _ => True) d := by
  obtain ⟨hdev, htype | htype⟩ := hpci
  · simp only [serve, htype, if_neg hdev, Prog.wp_call]
    exact Prog.wp_mono (pciRead_ends htype) (fun _ _ h => h.elim) fun _ _ h => h
  · simp only [serve, htype, if_neg hdev, Prog.wp_bind, Prog.wp_call, Prog.wp_pure]
    exact Prog.wp_mono (pciWrite_ends htype) (fun _ _ h => h.elim) fun _ _ h => h

theorem DaemonStep.ends {e : Served} {d' : Daemon} (h : DaemonStep daemon d e d')
    (hpci : e.request.IsPci) : e.Ends daemon d := by
  obtain ⟨hserve, htouches⟩ := h
  obtain ⟨touches', htouches', hends⟩ := Prog.wp_done (serve_ends hpci) hserve
  obtain rfl : e.touches = touches' := List.append_cancel_right (htouches.symm.trans htouches')
  exact hends

/-- A reply is truthful exactly if the request did not meet a stale descriptor. -/
theorem DaemonStep.truthful_iff {e : Served} {d' : Daemon} (h : DaemonStep daemon d e d') :
    e.Truthful daemon ↔ ¬(e.request.IsPci ∧ Stale daemon d e.request) := by
  constructor
  · rintro htruthful ⟨hpci, hstale⟩
    rcases h.ends hpci with ⟨_, hok, hnothing⟩ | ⟨hfresh, _⟩
    · obtain ⟨file, _, haccessed⟩ := htruthful hpci hok
      unfold Served.Accessed at haccessed
      rcases hpci.2 with htype | htype
      · simp [htype, hnothing] at haccessed
      · simp [htype, hnothing] at haccessed
    · exact hfresh hstale
  · intro hfresh hpci hok
    rcases h.ends hpci with ⟨hstale, _⟩ | ⟨_, haccess⟩
    · exact absurd ⟨hpci, hstale⟩ hfresh
    · exact haccess hok

/-- **Truthful replies over a run**: every PCI access answered without an error was
made, exactly if no request of the run meets a descriptor whose `open` failed
before. -/
theorem truthful_of_requests {d' : Daemon} {log : List Served}
    (h : Trace (DaemonStep daemon) d log d') :
    (∀ e ∈ log, e.Truthful daemon) ↔
      Trace (fun d e d' => DaemonStep daemon d e d' ∧
        ¬(e.request.IsPci ∧ Stale daemon d e.request)) d log d' := by
  constructor
  · intro htruthful
    induction h with
    | nil => exact .nil
    | snoc _ hstep ih =>
        have hlast := htruthful _ (List.mem_append_right _ List.mem_cons_self)
        exact (ih fun e he => htruthful e (List.mem_append_left _ he)).snoc
          ⟨hstep, hstep.truthful_iff.mp hlast⟩
  · intro hfresh
    refine Trace.invariant (P := fun log _ => ∀ e ∈ log, e.Truthful daemon) (by simp) ?_ hfresh
    rintro log d e d' hlog ⟨hstep, hfresh⟩ e' he'
    rcases List.mem_append.mp he' with he' | he'
    · exact hlog e' he'
    · obtain rfl := List.mem_singleton.mp he'
      exact hstep.truthful_iff.mpr hfresh

/-- A socket whose PCI devices are all found when the daemon starts. -/
def uncoreHost : DaemonHost where
  numHWThreads := 4
  numHWThreads_le := by decide
  allowed _ := true
  pci := some
    { allowedPci := fun _ _ => true
      pciDevices := fun _ => { type := .imc, path := some "13.0" } }
  buses := ["ff/"]
  buses_le := by decide

/-- All device files open, and every register holds `7`. -/
def servingFiles : DeviceFiles where
  opens _ := true
  pread _ _ _ := some 7
  pwrite _ _ _ _ := true
  rdpmc _ _ := 7
  uninit := 0

/-- No device file opens. -/
def refusingFiles : DeviceFiles := { servingFiles with opens := fun _ => false }

/-- A read of a memory controller register. -/
def imcRead : AccessDataRecord := { cpu := 0, reg := 0xA0, device := 2, type := .daemonRead }

def servedRead : Served where
  files := servingFiles
  request := imcRead
  reply := { imcRead with data := 7 }
  touches := [.read (.pci "/proc/bus/pci/ff/13.0") 0xA0 7]

/-- The device is opened and read. -/
def readDaemon : Daemon :=
  ((uncoreHost.start servingFiles).setFdPci 0 2 .opened).touch
    (.read (.pci "/proc/bus/pci/ff/13.0") 0xA0 7)

theorem truthful_of_requests_read :
    (∀ e ∈ [servedRead], e.Truthful uncoreHost.setup) ↔
      Trace (fun d e d' => DaemonStep uncoreHost.setup d e d' ∧
        ¬(e.request.IsPci ∧ Stale uncoreHost.setup d e.request)) (uncoreHost.start servingFiles)
        [servedRead] readDaemon :=
  have hread : DaemonStep uncoreHost.setup (uncoreHost.start servingFiles) servedRead readDaemon :=
    ⟨rfl, rfl⟩
  truthful_of_requests (Trace.nil.snoc hread)

/-- A read whose `open` fails. -/
def refusedRead : Served where
  files := refusingFiles
  request := imcRead
  reply := { imcRead with errorcode := .openFail }
  touches := []

def repeatedRead : Served where
  files := refusingFiles
  request := imcRead
  reply := { imcRead with errorcode := .noError }
  touches := []

/-- After `ERR_OPENFAIL` the same request is answered without an error. -/
theorem not_truthful_openFailed :
    ∃ d, Trace (DaemonStep uncoreHost.setup) (uncoreHost.start servingFiles)
        [refusedRead, repeatedRead] d ∧ ¬repeatedRead.Truthful uncoreHost.setup := by
  have hrefused : DaemonStep uncoreHost.setup (uncoreHost.start servingFiles) refusedRead
      ((uncoreHost.start servingFiles).setFdPci 0 2 .failed) := ⟨rfl, rfl⟩
  have hrepeated : DaemonStep uncoreHost.setup
      ((uncoreHost.start servingFiles).setFdPci 0 2 .failed) repeatedRead
      ((uncoreHost.start servingFiles).setFdPci 0 2 .failed) := ⟨rfl, rfl⟩
  refine ⟨_, (Trace.nil.snoc hrefused).snoc hrepeated, fun htruthful => ?_⟩
  obtain ⟨_, _, _, _, _, hnothing⟩ := htruthful ⟨by decide, Or.inl rfl⟩ rfl
  exact List.cons_ne_nil _ _ hnothing.symm

/-! ## Requests beyond the tables -/

/-- A request that names a PCI device. -/
def AccessDataRecord.AsksPci (dRecord : AccessDataRecord) : Prop :=
  dRecord.device ≠ msrDev ∧
    (dRecord.type = .daemonRead ∨ dRecord.type = .daemonWrite ∨ dRecord.type = .daemonCheck)

/-- **One request handled**: no table is indexed beyond its bounds or used
without being set up, and without PCI uncore support a PCI request is
answered with an error. -/
def HandledSafely (host : DaemonHost) (files : DeviceFiles) (d : Daemon)
    (dRecord : AccessDataRecord) : Prop :=
  (serve files host.setup dRecord).safe d ∧
    (host.pci = none → dRecord.AsksPci →
      ∃ reply d', serve files host.setup dRecord d = .done reply d' ∧ reply.errorcode ≠ .noError)

/-- CPU and device of the record lie within the tables, and those of a PCI request
are set up. -/
def DaemonHost.InTables (host : DaemonHost) (dRecord : AccessDataRecord) : Prop :=
  match dRecord.type with
  | .daemonRead | .daemonWrite | .daemonCheck =>
      if dRecord.device = msrDev then dRecord.cpu < maxNumThreads
      else host.pci.isSome ∧ dRecord.cpu < maxNumNodes ∧ dRecord.device < maxNumPciDevices
  | .daemonExit | .other _ => True

/-- Requests neither find nor lose a device. -/
def SameAbsent (d d' : Daemon) : Prop :=
  ∀ socket device, d'.fdPci socket device = .absent ↔ d.fdPci socket device = .absent

theorem SameAbsent.refl (d : Daemon) : SameAbsent d d := fun _ _ => Iff.rfl

theorem sameAbsent_setFdPci {socket device : ℕ} {fd : Fd} (h : d.fdPci socket device ≠ .absent)
    (hfd : fd ≠ .absent) : SameAbsent d (d.setFdPci socket device fd) := by
  intro i j
  unfold Daemon.setFdPci
  by_cases hij : i = socket ∧ j = device
  · obtain ⟨rfl, rfl⟩ := hij
    simp [h, hfd]
  · simp [hij]

theorem pciOpen_sameAbsent :
    (pciOpen files daemon dRecord).wp (fun _ d' => SameAbsent d d') (fun _ d' => SameAbsent d d')
      d := by
  unfold pciOpen
  simp only [Prog.wp_bind, Prog.wp_get, Prog.wp_when, Prog.wp_halt, Prog.wp_ret]
  refine ⟨fun _ => trivial, fun _ => ⟨fun _ => .refl d, fun hthere => ?_⟩⟩
  refine Prog.wp_mono (checkAllowedPci_wp dRecord) ?_ ?_
  · rintro _ d' ⟨rfl, -⟩
    simp only [Prog.wp_orUndefined, Prog.wp_modify]
    exact ⟨fun _ _ _ => ⟨fun _ => sameAbsent_setFdPci hthere (by decide),
      fun _ => sameAbsent_setFdPci hthere (by decide)⟩, fun _ => .refl d'⟩
  · rintro _ d' ⟨rfl, -⟩
    exact .refl d'

theorem serve_sameAbsent :
    (serve files daemon dRecord).wp (fun _ d' => SameAbsent d d') (fun _ _ => True) d := by
  cases htype : dRecord.type with
  | daemonRead =>
      simp only [serve, htype]
      split
      · simp only [msrRead, Prog.wp_call, Prog.wp_bind, Prog.wp_get, Prog.wp_when, Prog.wp_halt,
          Prog.wp_ret]
        refine ⟨fun _ => trivial, fun _ => ⟨fun _ => .refl d, fun _ => ⟨fun _ => .refl d,
          fun _ => ?_⟩⟩⟩
        split
        · exact .refl d
        · exact .refl d
      · simp only [pciRead, Prog.wp_call, Prog.wp_bind, Prog.wp_get, Prog.wp_when, Prog.wp_ret,
          Prog.wp_orUndefined]
        refine Prog.wp_mono pciOpen_sameAbsent (fun _ d' hsame => ⟨fun _ => hsame,
          fun _ file _ => ?_⟩) fun _ _ hsame => hsame
        split
        · exact hsame
        · exact hsame
  | daemonWrite =>
      simp only [serve, htype]
      split
      · simp only [msrWrite, Prog.wp_call, Prog.wp_bind, Prog.wp_get, Prog.wp_when, Prog.wp_halt,
          Prog.wp_ret, Prog.wp_modify, Prog.wp_pure]
        exact ⟨fun _ => trivial, fun _ => ⟨fun _ => .refl d, fun _ => ⟨fun _ => .refl d,
          fun _ => ⟨fun _ => .refl d, fun _ => .refl d⟩⟩⟩⟩
      · simp only [pciWrite, Prog.wp_call, Prog.wp_bind, Prog.wp_get, Prog.wp_when, Prog.wp_ret,
          Prog.wp_orUndefined, Prog.wp_modify, Prog.wp_pure]
        exact Prog.wp_mono pciOpen_sameAbsent (fun _ d' hsame => ⟨fun _ => hsame,
          fun _ file _ => ⟨fun _ => hsame, fun _ => hsame⟩⟩) fun _ _ hsame => hsame
  | daemonCheck =>
      simp only [serve, htype]
      split
      · simp only [msrCheck, Prog.wp_call, Prog.wp_bind, Prog.wp_get, Prog.wp_when, Prog.wp_halt,
          Prog.wp_ret]
        exact ⟨fun _ => trivial, fun _ => ⟨fun _ => .refl d, fun _ => .refl d⟩⟩
      · simp only [pciCheck, Prog.wp_call, Prog.wp_bind, Prog.wp_get, Prog.wp_when, Prog.wp_halt,
          Prog.wp_ret]
        exact ⟨fun _ => trivial, fun _ => ⟨fun _ => .refl d, fun _ => .refl d⟩⟩
  | daemonExit => simp [serve, htype]
  | other code =>
      simp only [serve, htype, Prog.wp_pure]
      exact .refl d

/-- Every device that is there has a device file; without PCI uncore support every
device passes for one. -/
structure Prepared (host : DaemonHost) (d : Daemon) : Prop where
  files : host.pci.isSome → ∀ socket device, d.fdPci socket device ≠ .absent →
    ∃ file, host.setup.pciFilepath socket device = some file
  unsupported : host.pci = none → ∀ socket device, d.fdPci socket device ≠ .absent

theorem Prepared.start (host : DaemonHost) : Prepared host (host.start files) where
  files hpci socket device hthere := by
    unfold DaemonHost.start at hthere
    rw [Option.isSome_iff_ne_none] at hpci
    simp only [Option.isNone_iff_eq_none, hpci, if_false] at hthere
    split at hthere
    · next h =>
        obtain ⟨file, hfile, -⟩ := (Option.any_eq_true _ _).mp h.2.2.2
        exact ⟨file, hfile⟩
    · exact absurd rfl hthere
  unsupported hpci socket device := by simp [DaemonHost.start, hpci]

theorem Prepared.of_sameAbsent {host : DaemonHost} {d' : Daemon} (h : Prepared host d)
    (hsame : SameAbsent d d') : Prepared host d' where
  files hpci socket device hthere :=
    h.files hpci socket device fun habsent => hthere ((hsame socket device).mpr habsent)
  unsupported hpci socket device hthere :=
    h.unsupported hpci socket device ((hsame socket device).mp hthere)

section HandledSafely

variable {host : DaemonHost}

theorem setup_pciDevicesDaemon_of_isSome (h : host.pci.isSome) :
    ∃ devices, host.setup.pciDevicesDaemon = some devices := by
  obtain ⟨support, hsupport⟩ := Option.isSome_iff_exists.mp h
  exact ⟨support.pciDevices, by simp [DaemonHost.setup, hsupport]⟩

theorem checkAllowedPci_safe (h : host.pci.isSome) :
    (checkAllowedPci host.setup dRecord).safe d := by
  obtain ⟨devices, hdevices⟩ := setup_pciDevicesDaemon_of_isSome h
  unfold checkAllowedPci
  cases host.setup.allowedPci with
  | none => exact Prog.safe_pure _
  | some allowedPci => simp [hdevices]

theorem pciOpen_safe (hprepared : Prepared host d) (hpci : host.pci.isSome)
    (hs : dRecord.cpu < maxNumNodes) (hd : dRecord.device < maxNumPciDevices) :
    (pciOpen files host.setup dRecord).safe d := by
  unfold pciOpen
  simp only [Prog.safe_bind, Prog.safe_get, Prog.safe_when, Prog.safe_halt, Prog.safe_ret,
    Prog.wp_get, Prog.wp_when, Prog.wp_halt, Prog.wp_ret, true_and]
  have hin : ¬(maxNumNodes ≤ dRecord.cpu ∨ maxNumPciDevices ≤ dRecord.device) :=
    not_or.mpr ⟨Nat.not_le.mpr hs, Nat.not_le.mpr hd⟩
  refine ⟨fun hout => absurd hout hin, fun _ => trivial, fun _ => ⟨fun _ => trivial,
    fun _ => trivial, fun hthere => ⟨checkAllowedPci_safe hpci, ?_⟩⟩⟩
  refine Prog.wp_mono (checkAllowedPci_wp dRecord) ?_ fun _ _ _ => trivial
  rintro _ d' ⟨rfl, -⟩ -
  obtain ⟨file, hfile⟩ := hprepared.files hpci _ _ hthere
  simp [hfile]

/-- After the device file is opened it has a name. -/
theorem pciOpen_named (hprepared : Prepared host d) (hpci : host.pci.isSome) :
    (pciOpen files host.setup dRecord).wp
      (fun _ d' => d'.fdPci dRecord.cpu dRecord.device = .opened →
        ∃ file, host.setup.pciFilepath dRecord.cpu dRecord.device = some file)
      (fun _ _ => True) d := by
  refine Prog.wp_mono pciOpen_sameAbsent (fun _ d' hsame hopened => ?_) fun _ _ _ => trivial
  exact (hprepared.of_sameAbsent hsame).files hpci _ _ (by simp [hopened])

theorem msrRead_safe (h : dRecord.cpu < maxNumThreads) :
    (msrRead files daemon dRecord).safe d := by
  simp only [msrRead, Prog.safe_bind, Prog.safe_get, Prog.safe_when, Prog.safe_halt,
    Prog.safe_ret, Prog.wp_get, Prog.wp_when, Prog.wp_halt, Prog.wp_ret, true_and]
  refine ⟨fun hout => absurd h (Nat.not_lt.mpr hout), fun _ => trivial, fun _ =>
    ⟨fun _ => trivial, fun _ => trivial, fun _ => ⟨fun _ => trivial, fun _ => trivial,
      fun _ => ?_⟩⟩⟩
  split
  · exact Prog.safe_ret _
  · simp

theorem msrWrite_safe (h : dRecord.cpu < maxNumThreads) :
    (msrWrite files daemon dRecord).safe d := by
  simp only [msrWrite, Prog.safe_bind, Prog.safe_get, Prog.safe_when, Prog.safe_halt,
    Prog.safe_ret, Prog.safe_modify, Prog.wp_get, Prog.wp_when, Prog.wp_halt, Prog.wp_ret,
    Prog.wp_modify, true_and]
  exact ⟨fun hout => absurd h (Nat.not_lt.mpr hout), by simp⟩

theorem msrCheck_safe (h : dRecord.cpu < maxNumThreads) : (msrCheck dRecord).safe d := by
  simp only [msrCheck, Prog.safe_bind, Prog.safe_get, Prog.safe_when, Prog.safe_halt,
    Prog.safe_ret, Prog.wp_get, Prog.wp_when, Prog.wp_halt, Prog.wp_ret, true_and]
  exact ⟨fun hout => absurd h (Nat.not_lt.mpr hout), by simp⟩

theorem pciRead_safe (hprepared : Prepared host d) (hpci : host.pci.isSome)
    (hs : dRecord.cpu < maxNumNodes) (hd : dRecord.device < maxNumPciDevices) :
    (pciRead files host.setup dRecord).safe d := by
  simp only [pciRead, Prog.safe_bind, Prog.safe_get, Prog.safe_when, Prog.safe_ret,
    Prog.safe_orUndefined, Prog.wp_get, Prog.wp_when, Prog.wp_ret, Prog.wp_orUndefined, true_and]
  refine ⟨pciOpen_safe hprepared hpci hs hd, ?_⟩
  refine Prog.wp_mono (pciOpen_named hprepared hpci) (fun _ d' hnamed => ?_) fun _ _ _ => trivial
  refine ⟨fun _ => trivial, fun _ => trivial, fun hopened => ⟨hnamed (not_not.mp hopened),
    fun file _ => ?_⟩⟩
  split
  · exact Prog.safe_ret _
  · simp

theorem pciWrite_safe (hprepared : Prepared host d) (hpci : host.pci.isSome)
    (hs : dRecord.cpu < maxNumNodes) (hd : dRecord.device < maxNumPciDevices) :
    (pciWrite files host.setup dRecord).safe d := by
  simp only [pciWrite, Prog.safe_bind, Prog.safe_get, Prog.safe_when, Prog.safe_ret,
    Prog.safe_orUndefined, Prog.safe_modify, Prog.wp_get, Prog.wp_when, Prog.wp_ret,
    Prog.wp_orUndefined, Prog.wp_modify, true_and]
  refine ⟨pciOpen_safe hprepared hpci hs hd, ?_⟩
  refine Prog.wp_mono (pciOpen_named hprepared hpci) (fun _ d' hnamed => ?_) fun _ _ _ => trivial
  exact ⟨fun _ => trivial, fun _ => trivial, fun hopened => ⟨hnamed (not_not.mp hopened),
    fun file _ => by simp⟩⟩

theorem pciCheck_safe (hs : dRecord.cpu < maxNumNodes) (hd : dRecord.device < maxNumPciDevices) :
    (pciCheck dRecord).safe d := by
  simp only [pciCheck, Prog.safe_bind, Prog.safe_get, Prog.safe_when, Prog.safe_halt,
    Prog.safe_ret, Prog.wp_get, Prog.wp_when, Prog.wp_halt, Prog.wp_ret, true_and]
  have hin : ¬(maxNumNodes ≤ dRecord.cpu ∨ maxNumPciDevices ≤ dRecord.device) :=
    not_or.mpr ⟨Nat.not_le.mpr hs, Nat.not_le.mpr hd⟩
  exact ⟨fun hout => absurd hout hin, by simp⟩

theorem serve_safe (hprepared : Prepared host d) (h : host.InTables dRecord) :
    (serve files host.setup dRecord).safe d := by
  unfold DaemonHost.InTables at h
  cases htype : dRecord.type with
  | daemonRead =>
      simp only [htype] at h
      simp only [serve, htype]
      split at h
      · next hdev =>
          rw [if_pos hdev, Prog.safe_call]
          exact msrRead_safe h
      · next hdev =>
          rw [if_neg hdev, Prog.safe_call]
          exact pciRead_safe hprepared h.1 h.2.1 h.2.2
  | daemonWrite =>
      simp only [htype] at h
      simp only [serve, htype]
      split at h
      · next hdev =>
          rw [if_pos hdev, Prog.safe_bind, Prog.safe_call]
          exact ⟨msrWrite_safe h, Prog.wp_mono (Prog.wp_trivial _) (fun _ _ _ => Prog.safe_pure _)
            fun _ _ _ => trivial⟩
      · next hdev =>
          rw [if_neg hdev, Prog.safe_bind, Prog.safe_call]
          exact ⟨pciWrite_safe hprepared h.1 h.2.1 h.2.2, Prog.wp_mono (Prog.wp_trivial _)
            (fun _ _ _ => Prog.safe_pure _) fun _ _ _ => trivial⟩
  | daemonCheck =>
      simp only [htype] at h
      simp only [serve, htype]
      split at h
      · next hdev =>
          rw [if_pos hdev, Prog.safe_call]
          exact msrCheck_safe h
      · next hdev =>
          rw [if_neg hdev, Prog.safe_call]
          exact pciCheck_safe h.2.1 h.2.2
  | daemonExit => simp [serve, htype]
  | other code => simp [serve, htype]

/-- A record that names no entry of the tables indexes them out of bounds. -/
theorem serve_outOfBounds (htype : dRecord.type = .daemonRead ∨ dRecord.type = .daemonWrite ∨
      dRecord.type = .daemonCheck)
    (hout : if dRecord.device = msrDev then maxNumThreads ≤ dRecord.cpu
      else maxNumNodes ≤ dRecord.cpu ∨ maxNumPciDevices ≤ dRecord.device) :
    serve files daemon dRecord d = .halt .outOfBounds := by
  have hopen : ∀ r : AccessDataRecord, maxNumNodes ≤ r.cpu ∨ maxNumPciDevices ≤ r.device →
      pciOpen files daemon r d = .halt .outOfBounds := by
    intro r hr
    unfold pciOpen
    rw [Prog.bind_of_done (Prog.get_apply d), Prog.when_of_pos hr]
    rfl
  split at hout
  · next hdev =>
      rcases htype with htype | htype | htype <;> simp only [serve, htype, if_pos hdev]
      · refine Prog.call_of_halt ?_
        unfold msrRead
        rw [Prog.bind_of_done (Prog.get_apply d), Prog.when_of_pos hout]
        rfl
      · refine Prog.bind_of_halt (Prog.call_of_halt ?_)
        unfold msrWrite
        rw [Prog.bind_of_done (Prog.get_apply d), Prog.when_of_pos hout]
        rfl
      · refine Prog.call_of_halt ?_
        unfold msrCheck
        rw [Prog.bind_of_done (Prog.get_apply d), Prog.when_of_pos hout]
        rfl
  · next hdev =>
      rcases htype with htype | htype | htype <;> simp only [serve, htype, if_neg hdev]
      · refine Prog.call_of_halt ?_
        unfold pciRead
        exact Prog.bind_of_halt (hopen { dRecord with data := 0 } hout)
      · refine Prog.bind_of_halt (Prog.call_of_halt ?_)
        unfold pciWrite
        exact Prog.bind_of_halt (hopen dRecord hout)
      · refine Prog.call_of_halt ?_
        unfold pciCheck
        rw [Prog.bind_of_done (Prog.get_apply d), Prog.when_of_pos hout]
        rfl

/-- Without PCI uncore support no PCI request is answered with an error. -/
theorem serve_unsupported (hprepared : Prepared host d) (hpci : host.pci = none)
    (hasks : dRecord.AsksPci) :
    (serve files host.setup dRecord).wp (fun reply _ => reply.errorcode = .noError)
      (fun _ _ => True) d := by
  obtain ⟨hdev, htype⟩ := hasks
  have hthere := hprepared.unsupported hpci dRecord.cpu dRecord.device
  have hallowed : host.setup.allowedPci = none := by simp [DaemonHost.setup, hpci]
  have hfile : ∀ socket device, host.setup.pciFilepath socket device = none := by
    simp [DaemonSetup.pciFilepath, DaemonHost.setup, hpci]
  rcases htype with htype | htype | htype
  · simp [serve, htype, hdev, pciRead, pciOpen, checkAllowedPci, hallowed, hfile, hthere]
  · simp [serve, htype, hdev, pciWrite, pciOpen, checkAllowedPci, hallowed, hfile, hthere]
  · simp [serve, htype, hdev, pciCheck, hthere]

theorem not_handledSafely (hprepared : Prepared host d) (h : ¬host.InTables dRecord) :
    ¬HandledSafely host files d dRecord := by
  rintro ⟨hsafe, herror⟩
  have htype : dRecord.type = .daemonRead ∨ dRecord.type = .daemonWrite ∨
      dRecord.type = .daemonCheck := by
    unfold DaemonHost.InTables at h
    cases htype : dRecord.type <;> simp [htype] at h ⊢
  have hin : (if dRecord.device = msrDev then dRecord.cpu < maxNumThreads
      else host.pci.isSome ∧ dRecord.cpu < maxNumNodes ∧
        dRecord.device < maxNumPciDevices) → False := by
    unfold DaemonHost.InTables at h
    rcases htype with htype | htype | htype <;> simpa only [htype] using h
  have hbounds : ¬(if dRecord.device = msrDev then maxNumThreads ≤ dRecord.cpu
      else maxNumNodes ≤ dRecord.cpu ∨ maxNumPciDevices ≤ dRecord.device) := fun hout =>
    absurd (hsafe _ (serve_outOfBounds htype hout)) (by decide)
  by_cases hdev : dRecord.device = msrDev
  · rw [if_pos hdev] at hin hbounds
    exact hin (Nat.lt_of_not_le hbounds)
  · rw [if_neg hdev] at hin hbounds
    have hpci : host.pci = none := by
      by_contra hsome
      exact hin ⟨Option.isSome_iff_ne_none.mpr hsome, Nat.lt_of_not_le (not_or.mp hbounds).1,
        Nat.lt_of_not_le (not_or.mp hbounds).2⟩
    obtain ⟨reply, d', hrun, herr⟩ := herror hpci ⟨hdev, htype⟩
    have hok := Prog.wp_done (serve_unsupported hprepared hpci ⟨hdev, htype⟩) hrun
    exact herr hok

/-- **Requests are handled safely**, whatever requests came before, exactly if the
record lies within the tables. -/
theorem handledSafely_iff {log : List Served} {start : DeviceFiles}
    (h : Trace (DaemonStep host.setup) (host.start start) log d) :
    HandledSafely host files d dRecord ↔ host.InTables dRecord := by
  have hprepared : Prepared host d := by
    refine Trace.invariant (P := fun _ d => Prepared host d) (.start host) ?_ h
    rintro _ d e d' hprepared ⟨hserve, -⟩
    have hwp : (serve e.files host.setup e.request).wp (fun _ d' => SameAbsent d d')
        (fun _ _ => True) d := serve_sameAbsent
    have hsame := Prog.wp_done hwp hserve
    exact hprepared.of_sameAbsent hsame
  constructor
  · intro hsafe
    by_contra hout
    exact not_handledSafely hprepared hout hsafe
  · intro hin
    refine ⟨serve_safe hprepared hin, fun hpci ⟨hdev, htype⟩ => ?_⟩
    unfold DaemonHost.InTables at hin
    rcases htype with htype | htype | htype <;> simp [htype, hdev, hpci] at hin

end HandledSafely

/-- A desktop machine: no uncore on the PCI bus. -/
def desktopHost : DaemonHost where
  numHWThreads := 4
  numHWThreads_le := by decide
  allowed _ := true
  pci := none
  buses := []
  buses_le := by decide

theorem handledSafely_iff_read :
    HandledSafely uncoreHost servingFiles readDaemon imcRead ↔ uncoreHost.InTables imcRead :=
  have hread : DaemonStep uncoreHost.setup (uncoreHost.start servingFiles) servedRead readDaemon :=
    ⟨rfl, rfl⟩
  handledSafely_iff (Trace.nil.snoc hread)

/-- The daemon of a desktop machine takes a memory controller for present. -/
theorem not_handledSafely_desktop :
    ¬HandledSafely desktopHost servingFiles (desktopHost.start servingFiles)
      { imcRead with type := .daemonCheck } := by
  rintro ⟨-, herror⟩
  obtain ⟨reply, d', hrun, herr⟩ := herror rfl ⟨by decide, Or.inr (Or.inr rfl)⟩
  obtain ⟨rfl, -⟩ := Prog.Outcome.done.inj hrun
  exact herr rfl

end Likwid
