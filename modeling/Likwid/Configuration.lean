import Likwid.AccessDaemon
import Likwid.Lib.Scan

/-!
# The configuration (`configuration.c`)

`init_configuration` looks for a configuration file and for a topology file and sets the
fields of the global `config`. Its strings are pointers to memory from `malloc`, which
`destroy_configuration` frees.
-/

namespace Likwid

open Scan

/-- What the functions find: the values of the build, the output of `which likwid-accessD`,
and the contents of the readable files. -/
structure ConfigEnv where
  accessMode : ℕ
  installPrefix : List Char
  cfgFile : List Char
  accessDaemon : List Char
  which : List Char
  file : List Char → Option (List Char)

/-- `Configuration`; a string is the number of the call of `malloc` that returned it. -/
structure Configuration where
  configFileName : Option ℕ
  topologyCfgFileName : Option ℕ
  daemonPath : Option ℕ
  daemonMode : Int
  maxNumThreads : Int
  maxNumNodes : Int
deriving DecidableEq, Repr

/-- `config`, `init_config`, and the memory from `malloc`: a string that was freed is
`none`. -/
structure ConfigState where
  config : Configuration
  initConfig : Int
  heap : List (Option (List Char))
deriving DecidableEq, Repr

/-- Why a call does not return. -/
inductive ConfigHalt where
  | exitFailure
  | doubleFree
deriving DecidableEq, Repr

/-- `ACCESSMODE_DIRECT` and `ACCESSMODE_DAEMON` -/
abbrev accessModeDirect : Int := 0

abbrev accessModeDaemon : Int := 1

/-- The state at the start of the process -/
def ConfigState.start : ConfigState where
  config := ⟨none, none, none, -1, maxNumThreads, maxNumNodes⟩
  initConfig := 0
  heap := []

/-- `malloc` and `strcpy` -/
def ConfigState.malloc (s : ConfigState) (string : List Char) : ℕ × ConfigState :=
  (s.heap.length, { s with heap := s.heap ++ [some string] })

/-- `free`, unless the pointer is `NULL` -/
def ConfigState.free (s : ConfigState) : Option ℕ → Except ConfigHalt ConfigState
  | none => .ok s
  | some p =>
      match s.heap[p]? with
      | some (some _) => .ok { s with heap := s.heap.set p none }
      | _ => .error .doubleFree

namespace ConfigEnv

/-- `!access(path, R_OK)` -/
def readable (env : ConfigEnv) (path : List Char) : Prop := (env.file path).isSome

instance (env : ConfigEnv) (path : List Char) : Decidable (env.readable path) :=
  inferInstanceAs (Decidable (_ = true))

def etcConfig : List Char := "/etc/likwid.cfg".toList

def etcTopology : List Char := "/etc/likwid_topo.cfg".toList

/-- The `filename` of `init_configuration` -/
def configFile (env : ConfigEnv) : List Char :=
  let preconfigured := env.installPrefix ++ etcConfig
  if ¬env.readable preconfigured then
    if ¬env.readable env.cfgFile then
      if env.readable etcConfig then etcConfig else []
    else env.cfgFile
  else preconfigured

/-- The `preconfigured` of `init_configuration`, after it has looked for a topology file -/
def topologyFile (env : ConfigEnv) : List Char :=
  if env.readable etcTopology then etcTopology
  else
    let preconfigured := env.installPrefix ++ etcTopology
    if ¬env.readable preconfigured then [] else preconfigured

end ConfigEnv

section

variable (env : ConfigEnv)

def setDaemonPath (s : ConfigState) (path : List Char) : ConfigState :=
  let (p, s) := s.malloc path
  { s with config := { s.config with daemonPath := some p } }

/-- `default_configuration` -/
def defaultConfiguration (s : ConfigState) : Except ConfigHalt ConfigState :=
  if env.accessMode = 0 then
    .ok { s with config := { s.config with daemonMode := accessModeDirect }, initConfig := 1 }
  else
    let s := { s with config := { s.config with daemonMode := accessModeDaemon } }
    if env.which ≠ [] then .ok { setDaemonPath s env.which with initConfig := 1 }
    else if env.readable env.accessDaemon then
      .ok { setDaemonPath s env.accessDaemon with initConfig := 1 }
    else .error .exitFailure

/-- `sscanf(line,"%s = %s", name, value)` -/
def scanSetting (line : List Char) : Option (List Char × List Char) :=
  match scan [.word, .blanks, .lit '=', .blanks, .word] line with
  | [.word name, .word value] => some (name, value)
  | _ => none

/-- `daemon` and `direct` -/
def modeOf (value : List Char) : Option Int :=
  if value = "daemon".toList then some accessModeDaemon
  else if value = "direct".toList then some accessModeDirect
  else none

/-- The body of the loop over the lines -/
def readSetting (s : ConfigState) (line : List Char) : Except ConfigHalt ConfigState :=
  match scanSetting line with
  | none => .ok s
  | some (name, value) =>
      if name = "topology_file".toList then
        let (p, s) := s.malloc value
        .ok { s with config := { s.config with topologyCfgFileName := some p } }
      else if name = "daemon_path".toList then
        let s := setDaemonPath s value
        if ¬env.readable value then defaultConfiguration env s else .ok s
      else if name = "daemon_mode".toList then
        .ok { s with config := { s.config with
          daemonMode := (modeOf value).getD s.config.daemonMode } }
      else if name = "max_threads".toList then
        .ok { s with config := { s.config with maxNumThreads := atoi value } }
      else if name = "max_nodes".toList then
        .ok { s with config := { s.config with maxNumNodes := atoi value } }
      else .ok s

/-- The search for a topology file, when there is no configuration file -/
def findTopologyFile (s : ConfigState) : ConfigState :=
  if s.config.topologyCfgFileName = none ∧ env.configFile = [] ∧ env.topologyFile ≠ [] then
    let (p, s) := s.malloc env.topologyFile
    { s with config := { s.config with topologyCfgFileName := some p } }
  else s

/-- `init_configuration` -/
def initConfiguration (s : ConfigState) : Except ConfigHalt ConfigState :=
  if s.initConfig = 1 then .ok s
  else
    let filename := env.configFile
    let s := findTopologyFile env s
    if filename = [] ∨ env.readable filename then defaultConfiguration env s
    else
      let (p, s) := s.malloc filename
      let s := { s with config := { s.config with configFileName := some p } }
      match env.file filename with
      | none => defaultConfiguration env s
      | some text => do
          let s ← (fgetsLines 512 text).foldlM (readSetting env) s
          .ok { s with initConfig := 1 }

end

/-- `destroy_configuration` -/
def destroyConfiguration (s : ConfigState) : Except ConfigHalt ConfigState :=
  if s.initConfig = 0 then .ok s
  else do
    let s ← s.free s.config.configFileName
    let s ← s.free s.config.topologyCfgFileName
    let s ← s.free s.config.daemonPath
    .ok { s with initConfig := 0 }

/-! ## What the functions do -/

variable {env : ConfigEnv} {s s' : ConfigState}

/-- The string that a pointer of the configuration points to -/
def ConfigState.string (s : ConfigState) (p : Option ℕ) : Option (List Char) :=
  p.bind fun p => s.heap[p]?.join

/-- The path of the daemon, without a configuration file -/
def ConfigEnv.defaultPath (env : ConfigEnv) : List Char :=
  if env.which ≠ [] then env.which else env.accessDaemon

/-- `default_configuration` does not end the process. -/
def ConfigEnv.Starts (env : ConfigEnv) : Prop :=
  env.accessMode = 0 ∨ env.which ≠ [] ∨ env.readable env.accessDaemon

theorem ConfigEnv.configFile_readable (env : ConfigEnv) :
    env.configFile = [] ∨ env.readable env.configFile := by
  show (if ¬env.readable (env.installPrefix ++ etcConfig) then _ else _) = [] ∨
    env.readable (if ¬env.readable (env.installPrefix ++ etcConfig) then _ else _)
  by_cases hpre : env.readable (env.installPrefix ++ etcConfig)
  · rw [if_neg (not_not.mpr hpre)]
    exact Or.inr hpre
  · rw [if_pos hpre]
    by_cases hcfg : env.readable env.cfgFile
    · rw [if_neg (not_not.mpr hcfg)]
      exact Or.inr hcfg
    · rw [if_pos hcfg]
      by_cases hetc : env.readable etcConfig
      · rw [if_pos hetc]
        exact Or.inr hetc
      · rw [if_neg hetc]
        exact Or.inl rfl

/-- **The file is not read**: it is there, and the access test asks for one that is not. -/
theorem initConfiguration_eq (h : s.initConfig ≠ 1) :
    initConfiguration env s = defaultConfiguration env (findTopologyFile env s) := by
  rw [initConfiguration, if_neg h]
  exact if_pos env.configFile_readable

/-- The state after `default_configuration` -/
def defaulted (env : ConfigEnv) (s : ConfigState) : ConfigState :=
  if env.accessMode = 0 then
    { s with config := { s.config with daemonMode := accessModeDirect }, initConfig := 1 }
  else
    { setDaemonPath { s with config := { s.config with daemonMode := accessModeDaemon } }
        env.defaultPath with initConfig := 1 }

theorem defaultConfiguration_eq (s : ConfigState) (h : env.Starts) :
    defaultConfiguration env s = .ok (defaulted env s) := by
  rw [defaultConfiguration, defaulted]
  split
  · rfl
  · next hmode =>
      rw [ConfigEnv.defaultPath]
      by_cases hwhich : env.which ≠ []
      · rw [if_pos hwhich, if_pos hwhich]
      · have hdaemon : env.readable env.accessDaemon :=
          (h.resolve_left hmode).resolve_left hwhich
        rw [if_neg hwhich, if_neg hwhich, if_pos hdaemon]

theorem defaultConfiguration_exit (s : ConfigState) (h : ¬env.Starts) :
    defaultConfiguration env s = .error .exitFailure := by
  rw [ConfigEnv.Starts, not_or, not_or] at h
  rw [defaultConfiguration, if_neg h.1]
  show (if env.which ≠ [] then _ else if env.readable env.accessDaemon then _ else _) = _
  rw [if_neg h.2.1, if_neg h.2.2]

@[simp] theorem defaulted_initConfig : (defaulted env s).initConfig = 1 := by
  rw [defaulted]
  split <;> rfl

theorem defaulted_config :
    (defaulted env s).config = { s.config with
      daemonPath := if env.accessMode = 0 then s.config.daemonPath else some s.heap.length
      daemonMode := if env.accessMode = 0 then accessModeDirect else accessModeDaemon } := by
  rw [defaulted]
  split <;> rfl

theorem defaulted_heap :
    (defaulted env s).heap =
      s.heap ++ if env.accessMode = 0 then [] else [some env.defaultPath] := by
  rw [defaulted]
  split
  · exact (List.append_nil _).symm
  · rfl

/-! ## The settings of the file -/

/-- The value of the last well-formed line with this name -/
def lastValue (name : String) (content : List Char) : Option (List Char) :=
  ((fgetsLines 512 content).filterMap fun line => (scanSetting line).bind fun setting =>
    if setting.1 = name.toList then some setting.2 else none).getLast?

/-- The mode of the last line that sets one -/
def lastMode (content : List Char) : Option Int :=
  ((fgetsLines 512 content).filterMap fun line => (scanSetting line).bind fun setting =>
    if setting.1 = "daemon_mode".toList then modeOf setting.2 else none).getLast?

/-- The settings of the file are those of the configuration, and the others have their
defaults. -/
structure HasSettings (env : ConfigEnv) (content : List Char) (s : ConfigState) : Prop where
  topologyFile : s.string s.config.topologyCfgFileName = lastValue "topology_file" content
  daemonPath : s.string s.config.daemonPath = (lastValue "daemon_path" content).or
    (if env.accessMode = 0 then none else some env.defaultPath)
  daemonMode : s.config.daemonMode = (lastMode content).getD
    (if env.accessMode = 0 then accessModeDirect else accessModeDaemon)
  maxThreads : s.config.maxNumThreads =
    ((lastValue "max_threads" content).map atoi).getD maxNumThreads
  maxNodes : s.config.maxNumNodes = ((lastValue "max_nodes" content).map atoi).getD maxNumNodes

/-- **The settings**: when there is a configuration file, what
`init_configuration` leaves behind are its settings. -/
def ReadsConfiguration (env : ConfigEnv) : Prop :=
  ∀ content, env.configFile ≠ [] → env.file env.configFile = some content →
    ∀ s, initConfiguration env .start = .ok s → HasSettings env content s

/-- The settings of a file are the defaults. -/
structure SetsDefaults (env : ConfigEnv) (content : List Char) : Prop where
  topologyFile : lastValue "topology_file" content = none
  daemonPath : ∀ v ∈ lastValue "daemon_path" content, env.accessMode ≠ 0 ∧ v = env.defaultPath
  daemonMode : ∀ m ∈ lastMode content,
    m = if env.accessMode = 0 then accessModeDirect else accessModeDaemon
  maxThreads : ∀ v ∈ lastValue "max_threads" content, atoi v = maxNumThreads
  maxNodes : ∀ v ∈ lastValue "max_nodes" content, atoi v = maxNumNodes

theorem hasSettings_defaulted (content : List Char) :
    HasSettings env content (defaulted env .start) ↔ SetsDefaults env content := by
  have hpath : (defaulted env .start).string (defaulted env .start).config.daemonPath =
      if env.accessMode = 0 then none else some env.defaultPath := by
    rw [ConfigState.string, defaulted_config, defaulted_heap]
    split <;> rfl
  have htopology : (defaulted env .start).string
      (defaulted env .start).config.topologyCfgFileName = none := by
    rw [defaulted_config]
    rfl
  have hmode : (defaulted env .start).config.daemonMode =
      if env.accessMode = 0 then accessModeDirect else accessModeDaemon := by
    rw [defaulted_config]
  have hthreads : (defaulted env .start).config.maxNumThreads = maxNumThreads := by
    rw [defaulted_config]
    rfl
  have hnodes : (defaulted env .start).config.maxNumNodes = maxNumNodes := by
    rw [defaulted_config]
    rfl
  constructor
  · intro h
    refine ⟨htopology ▸ h.topologyFile.symm, fun v hv => ?_, fun m hm => ?_, fun v hv => ?_,
      fun v hv => ?_⟩
    · have heq := h.daemonPath
      rw [hpath, hv, Option.some_or] at heq
      split at heq
      · cases heq
      · next hne => exact ⟨hne, (Option.some.inj heq).symm⟩
    · have heq := h.daemonMode
      rw [hmode, hm] at heq
      exact heq.symm
    · have heq := h.maxThreads
      rw [hthreads, hv] at heq
      exact heq.symm
    · have heq := h.maxNodes
      rw [hnodes, hv] at heq
      exact heq.symm
  · intro h
    refine ⟨htopology.trans h.topologyFile.symm, ?_, ?_, ?_, ?_⟩
    · rw [hpath]
      cases hv : lastValue "daemon_path" content with
      | none => rfl
      | some v =>
          obtain ⟨hne, rfl⟩ := h.daemonPath v hv
          rw [if_neg hne]
          rfl
    · rw [hmode]
      cases hm : lastMode content with
      | none => rfl
      | some m => exact (h.daemonMode m hm).symm
    · rw [hthreads]
      cases hv : lastValue "max_threads" content with
      | none => rfl
      | some v => exact (h.maxThreads v hv).symm
    · rw [hnodes]
      cases hv : lastValue "max_nodes" content with
      | none => rfl
      | some v => exact (h.maxNodes v hv).symm

/-- **The settings of the file are read** exactly if they are the defaults anyway. -/
theorem readsConfiguration_iff (env : ConfigEnv) :
    ReadsConfiguration env ↔ ∀ content, env.configFile ≠ [] →
      env.file env.configFile = some content → env.Starts → SetsDefaults env content := by
  refine forall_congr' fun content => forall₂_congr fun hfile _ => ?_
  have hfind : findTopologyFile env .start = .start := if_neg fun h => hfile h.2.1
  have hinit : initConfiguration env .start = defaultConfiguration env .start := by
    rw [initConfiguration_eq (by decide), hfind]
  rw [hinit]
  by_cases hstarts : env.Starts
  · rw [defaultConfiguration_eq _ hstarts, ← hasSettings_defaulted]
    constructor
    · exact fun h _ => h _ rfl
    · rintro h s heq
      obtain rfl := Except.ok.inj heq
      exact h hstarts
  · rw [defaultConfiguration_exit _ hstarts]
    exact iff_of_true nofun fun h => absurd h hstarts

/-- A build that uses the daemon, with `likwid-accessD` in the `PATH` and one file -/
def oneFile (path content : String) : ConfigEnv where
  accessMode := 1
  installPrefix := "/usr/local".toList
  cfgFile := "/etc/likwid.cfg".toList
  accessDaemon := "/usr/local/sbin/likwid-accessD".toList
  which := "/usr/local/sbin/likwid-accessD".toList
  file name := if name = path.toList then some content.toList else none

/-- The file sets the number of threads, and the configuration has the default. -/
theorem not_readsConfiguration_maxThreads :
    ¬ReadsConfiguration (oneFile "/etc/likwid.cfg" "max_threads = 8\n") := by
  intro h
  have hinit : (initConfiguration (oneFile "/etc/likwid.cfg" "max_threads = 8\n")
      .start).toOption.map (·.config.maxNumThreads) = some 263 := by decide +kernel
  cases hrun : initConfiguration (oneFile "/etc/likwid.cfg" "max_threads = 8\n") .start with
  | error e =>
      rw [hrun] at hinit
      cases hinit
  | ok s =>
      have hthreads :=
        (h "max_threads = 8\n".toList (by decide +kernel) (by decide +kernel) s hrun).maxThreads
      rw [hrun] at hinit
      rw [show s.config.maxNumThreads = 263 from Option.some.inj hinit] at hthreads
      exact absurd hthreads (by decide +kernel)

/-! ## Calls in any order -/

inductive ConfigCall where
  | init
  | get
  | destroy
deriving DecidableEq, Repr

def ConfigCall.run (env : ConfigEnv) : ConfigCall → ConfigState → Except ConfigHalt ConfigState
  | .init, s => initConfiguration env s
  | .get, s => .ok s
  | .destroy, s => destroyConfiguration s

/-- Calls from the start of the process on -/
def configCalls (env : ConfigEnv) (cs : List ConfigCall) : Except ConfigHalt ConfigState :=
  cs.foldlM (fun s c => c.run env s) .start

/-- What a user of the configuration sees: for each pointer that is not `NULL`, the string,
or that it was freed. -/
structure ConfigView where
  configFileName : Option (Option (List Char))
  topologyCfgFileName : Option (Option (List Char))
  daemonPath : Option (Option (List Char))
  daemonMode : Int
  maxNumThreads : Int
  maxNumNodes : Int

def ConfigState.view (s : ConfigState) : ConfigView where
  configFileName := s.config.configFileName.map fun p => s.heap[p]?.join
  topologyCfgFileName := s.config.topologyCfgFileName.map fun p => s.heap[p]?.join
  daemonPath := s.config.daemonPath.map fun p => s.heap[p]?.join
  daemonMode := s.config.daemonMode
  maxNumThreads := s.config.maxNumThreads
  maxNumNodes := s.config.maxNumNodes

/-- No pointer of the configuration refers to freed memory. -/
def ConfigState.Live (s : ConfigState) : Prop :=
  ∀ p : ℕ, (s.config.configFileName = some p ∨ s.config.topologyCfgFileName = some p ∨
    s.config.daemonPath = some p) → ∃ string, s.heap[p]? = some (some string)

/-- **The calls**: no string is freed twice, and after every initialisation the
configuration is the same as after the first, and refers to no freed memory. -/
def KeepsConfiguration (env : ConfigEnv) : Prop :=
  ∀ cs, configCalls env cs ≠ .error .doubleFree ∧
    ∀ s, configCalls env cs = .ok s → s.initConfig = 1 →
      s.Live ∧ ∀ s₁, initConfiguration env .start = .ok s₁ → s.view = s₁.view

/-- The state between the calls, as long as no topology file is set: the configuration has
the path of the daemon only, and that is not freed while it is initialised. -/
structure ConfigState.Plain (env : ConfigEnv) (s : ConfigState) : Prop where
  configFileName : s.config.configFileName = none
  topologyCfgFileName : s.config.topologyCfgFileName = none
  maxNumThreads : s.config.maxNumThreads = maxNumThreads
  maxNumNodes : s.config.maxNumNodes = maxNumNodes
  initConfig : s.initConfig = 0 ∨ s.initConfig = 1
  noPath : env.accessMode = 0 → s.config.daemonPath = none
  path : s.initConfig = 1 → env.accessMode ≠ 0 →
    ∃ p, s.config.daemonPath = some p ∧ s.heap[p]? = some (some env.defaultPath)
  mode : s.initConfig = 1 → s.config.daemonMode =
    if env.accessMode = 0 then accessModeDirect else accessModeDaemon

theorem plain_start (env : ConfigEnv) : ConfigState.start.Plain env :=
  ⟨rfl, rfl, rfl, rfl, Or.inl rfl, fun _ => rfl, nofun, nofun⟩

theorem ConfigState.Plain.defaulted (h : s.Plain env) : (defaulted env s).Plain env := by
  refine ⟨?_, ?_, ?_, ?_, Or.inr defaulted_initConfig, fun hmode => ?_, fun _ hmode => ?_,
    fun _ => ?_⟩
  · rw [defaulted_config]
    exact h.configFileName
  · rw [defaulted_config]
    exact h.topologyCfgFileName
  · rw [defaulted_config]
    exact h.maxNumThreads
  · rw [defaulted_config]
    exact h.maxNumNodes
  · rw [defaulted_config]
    exact (if_pos hmode).trans (h.noPath hmode)
  · refine ⟨s.heap.length, ?_, ?_⟩
    · rw [defaulted_config]
      exact if_neg hmode
    · rw [defaulted_heap, if_neg hmode, List.getElem?_append_right (Nat.le_refl _), Nat.sub_self]
      rfl
  · rw [defaulted_config]

theorem ConfigState.Plain.init (h : s.Plain env)
    (henv : env.configFile ≠ [] ∨ env.topologyFile = [] ∨ ¬env.Starts) :
    initConfiguration env s = .error .exitFailure ∨
      ∃ s', initConfiguration env s = .ok s' ∧ s'.Plain env ∧ s'.initConfig = 1 := by
  by_cases hinit : s.initConfig = 1
  · exact Or.inr ⟨s, if_pos hinit, h, hinit⟩
  · rw [initConfiguration_eq hinit]
    by_cases hstarts : env.Starts
    · have hfind : findTopologyFile env s = s := by
        refine if_neg fun hall => ?_
        rcases henv with hfile | hnone | hno
        · exact hfile hall.2.1
        · exact hall.2.2 hnone
        · exact hno hstarts
      rw [hfind, defaultConfiguration_eq s hstarts]
      exact Or.inr ⟨_, rfl, h.defaulted, defaulted_initConfig⟩
    · exact Or.inl (defaultConfiguration_exit _ hstarts)

theorem ConfigState.Plain.destroy (h : s.Plain env) :
    ∃ s', destroyConfiguration s = .ok s' ∧ s'.Plain env := by
  rcases h.initConfig with hinit | hinit
  · exact ⟨s, if_pos hinit, h⟩
  · have hne : s.initConfig ≠ 0 := by
      rw [hinit]
      decide
    rw [destroyConfiguration, if_neg hne, h.configFileName]
    show ∃ s', ((s.free s.config.topologyCfgFileName).bind _) = .ok s' ∧ _
    rw [h.topologyCfgFileName]
    show ∃ s', ((s.free s.config.daemonPath).bind _) = .ok s' ∧ _
    by_cases hmode : env.accessMode = 0
    · rw [h.noPath hmode]
      exact ⟨_, rfl, h.configFileName, h.topologyCfgFileName, h.maxNumThreads, h.maxNumNodes,
        Or.inl rfl, h.noPath, nofun, nofun⟩
    · obtain ⟨p, hp, hheap⟩ := h.path hinit hmode
      rw [hp, ConfigState.free, hheap]
      exact ⟨_, rfl, h.configFileName, h.topologyCfgFileName, h.maxNumThreads, h.maxNumNodes,
        Or.inl rfl, fun hzero => absurd hzero hmode, nofun, nofun⟩

theorem ConfigState.Plain.calls (h : s.Plain env)
    (henv : env.configFile ≠ [] ∨ env.topologyFile = [] ∨ ¬env.Starts) (cs : List ConfigCall) :
    cs.foldlM (fun s c => c.run env s) s = .error .exitFailure ∨
      ∃ s', cs.foldlM (fun s c => c.run env s) s = .ok s' ∧ s'.Plain env := by
  induction cs generalizing s with
  | nil => exact Or.inr ⟨s, rfl, h⟩
  | cons c cs ih =>
      rw [List.foldlM_cons]
      have hcall : c.run env s = .error .exitFailure ∨
          ∃ s', c.run env s = .ok s' ∧ s'.Plain env := by
        cases c with
        | init => exact (h.init henv).imp_right fun ⟨s', hrun, hs', _⟩ => ⟨s', hrun, hs'⟩
        | get => exact Or.inr ⟨s, rfl, h⟩
        | destroy => exact Or.inr h.destroy
      rcases hcall with hexit | ⟨s', hrun, hs'⟩
      · rw [hexit]
        exact Or.inl rfl
      · rw [hrun]
        exact ih hs'

theorem ConfigState.Plain.live (h : s.Plain env) (hinit : s.initConfig = 1) : s.Live := by
  rintro p (hp | hp | hp)
  · rw [h.configFileName] at hp
    cases hp
  · rw [h.topologyCfgFileName] at hp
    cases hp
  · by_cases hmode : env.accessMode = 0
    · rw [h.noPath hmode] at hp
      cases hp
    · obtain ⟨p', hp', hheap⟩ := h.path hinit hmode
      obtain rfl := Option.some.inj (hp.symm.trans hp')
      exact ⟨_, hheap⟩

theorem ConfigState.Plain.view_eq (h : s.Plain env) (hinit : s.initConfig = 1) :
    s.view =
      { configFileName := none
        topologyCfgFileName := none
        daemonPath := if env.accessMode = 0 then none else some (some env.defaultPath)
        daemonMode := if env.accessMode = 0 then accessModeDirect else accessModeDaemon
        maxNumThreads := Likwid.maxNumThreads
        maxNumNodes := Likwid.maxNumNodes } := by
  have hpath : s.config.daemonPath.map (fun p => s.heap[p]?.join) =
      if env.accessMode = 0 then none else some (some env.defaultPath) := by
    by_cases hmode : env.accessMode = 0
    · rw [h.noPath hmode, if_pos hmode]
      rfl
    · obtain ⟨p, hp, hheap⟩ := h.path hinit hmode
      rw [hp, if_neg hmode, Option.map_some, hheap]
      rfl
  rw [ConfigState.view, h.configFileName, h.topologyCfgFileName, hpath, h.mode hinit,
    h.maxNumThreads, h.maxNumNodes]
  rfl

/-- The pointer to the name of the topology file is not reset, so the next call of
`init_configuration` leaves it as it is: it refers to freed memory. -/
theorem not_keepsConfiguration (hfile : env.configFile = []) (htopology : env.topologyFile ≠ [])
    (hstarts : env.Starts) : ¬KeepsConfiguration env := by
  intro h
  have hfind : findTopologyFile env .start =
      { ConfigState.start with
        config := { ConfigState.start.config with topologyCfgFileName := some 0 }
        heap := [some env.topologyFile] } := if_pos ⟨rfl, hfile, htopology⟩
  have hfirst : initConfiguration env .start =
      .ok (defaulted env (findTopologyFile env .start)) := by
    rw [initConfiguration_eq (by decide), defaultConfiguration_eq _ hstarts]
  -- the second state: the name is freed, and the pointer is as before
  obtain ⟨s₂, hdestroy, hinit, hname, hheap⟩ :
      ∃ s₂, destroyConfiguration (defaulted env (findTopologyFile env .start)) = .ok s₂ ∧
        s₂.initConfig = 0 ∧ s₂.config.topologyCfgFileName = some 0 ∧
        s₂.heap[0]? = some none := by
    rw [hfind, defaulted]
    split
    · exact ⟨_, rfl, rfl, rfl, rfl⟩
    · exact ⟨_, rfl, rfl, rfl, rfl⟩
  have hkeep : findTopologyFile env s₂ = s₂ := if_neg fun hall => by
    rw [hname] at hall
    cases hall.1
  have hsecond : initConfiguration env s₂ = .ok (defaulted env s₂) := by
    rw [initConfiguration_eq (by rw [hinit]; decide), hkeep, defaultConfiguration_eq _ hstarts]
  have hcalls : configCalls env [.init, .destroy, .init] = .ok (defaulted env s₂) := by
    show (initConfiguration env .start).bind _ = _
    rw [hfirst]
    show (destroyConfiguration _).bind _ = _
    rw [hdestroy]
    show (initConfiguration env s₂).bind _ = _
    rw [hsecond]
    rfl
  obtain ⟨string, hstring⟩ := ((h _).2 _ hcalls defaulted_initConfig).1 0
    (Or.inr (Or.inl (by rw [defaulted_config]; exact hname)))
  have hlen : 0 < s₂.heap.length := by
    by_contra hno
    rw [List.getElem?_eq_none (Nat.not_lt.mp hno)] at hheap
    cases hheap
  rw [defaulted_heap, List.getElem?_append_left hlen, hheap] at hstring
  cases hstring

/-- **The configuration is kept** exactly if there is a configuration file or no topology
file, or if the first call ends the process. -/
theorem keepsConfiguration_iff (env : ConfigEnv) :
    KeepsConfiguration env ↔
      env.configFile ≠ [] ∨ env.topologyFile = [] ∨ ¬env.Starts := by
  constructor
  · intro h
    by_contra hno
    rw [not_or, not_or, not_not, not_not] at hno
    exact not_keepsConfiguration hno.1 hno.2.1 hno.2.2 h
  · intro henv cs
    rcases (plain_start env).calls henv cs with hexit | ⟨s, hrun, hs⟩
    · rw [configCalls, hexit]
      exact ⟨nofun, nofun⟩
    · rw [configCalls, hrun]
      refine ⟨nofun, fun s' heq hinit => ?_⟩
      obtain rfl := Except.ok.inj heq
      refine ⟨hs.live hinit, fun s₁ hfirst => ?_⟩
      rcases (plain_start env).init henv with hexit | ⟨s₁', hrun₁, hs₁, hinit₁⟩
      · rw [hexit] at hfirst
        cases hfirst
      · obtain rfl := Except.ok.inj (hrun₁.symm.trans hfirst)
        rw [hs.view_eq hinit, hs₁.view_eq hinit₁]

/-- A topology file and no configuration file -/
theorem not_keepsConfiguration_topologyFile :
    ¬KeepsConfiguration (oneFile "/etc/likwid_topo.cfg" "") :=
  not_keepsConfiguration (by decide +kernel) (by decide +kernel)
    (Or.inr (Or.inl (by decide +kernel)))

end Likwid
