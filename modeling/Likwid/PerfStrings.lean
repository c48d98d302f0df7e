import Likwid.GroupFiles
import Likwid.HostFiles
import Likwid.Lib.FirstCome

/-!
# Event strings for the processes of a node (`likwid-mpirun.lua`)

`setPerfStrings` gives each process of a node an event string for each group. All processes measure
the events of the cores; the other events are for one process per socket. Which process this is the
function decides by the first CPU of each process alone, and so it goes wrong with processes that
have CPUs on more than one socket (`setPerfStrings_iff`).
-/

namespace Likwid

open Text Pattern

/-! ## Events -/

def digitItem : Item := ⟨Char.isDigit, .one⟩

/-- `"FIXC%d"`, `"^PMC%d"` and `"TMP%d"` -/
def isCoreCounter (counter : List Char) : Bool :=
  (find (literal "FIXC".toList ++ [digitItem]) counter).isSome ||
  (matchHere (literal "PMC".toList ++ [digitItem]) counter).isSome ||
  (find (literal "TMP".toList ++ [digitItem]) counter).isSome

/-- `Event..":"..Counter` -/
def GroupEvent.token? (e : GroupEvent) : Option (List Char) := do
  let event ← e.event
  let counter ← e.counter
  some (event ++ ':' :: counter)

def createEventString : List GroupEvent → List Char
  | [] => []
  | e :: es => e.token?.getD [] ++ es.flatMap fun e => (e.token?.map (',' :: ·)).getD []

def GroupEvent.isCore (e : GroupEvent) : Bool := e.counter.any isCoreCounter

/-- `coreevents` and `uncoreevents`; an event without a counter is an error. -/
def splitEvents (events : List GroupEvent) : Option (List GroupEvent × List GroupEvent) :=
  if events.all (·.counter.isSome) then
    some (events.filter GroupEvent.isCore, events.filter (!GroupEvent.isCore ·))
  else none

/-- The event string with the uncore events -/
def fullEventString (coreevents uncoreevents : List GroupEvent) : List Char :=
  createEventString coreevents ++
    if 0 < uncoreevents.length then ',' :: createEventString uncoreevents else []

/-! ## Sockets -/

/-- An entry of `affinity["domains"]` -/
structure LuaDomain where
  tag : List Char
  processorList : List ℕ
deriving DecidableEq, Repr

/-- The domains with a tag like `"S%d+"` -/
def socketList (domains : List LuaDomain) : List (List ℕ) :=
  (domains.filter fun d => (find [⟨(· == 'S'), .one⟩, ⟨Char.isDigit, .plus⟩] d.tag).isSome).map
    LuaDomain.processorList

/-- `tonumber(cpu)` -/
def cpuNumber (cpu : List Char) : Option ℕ := if cpu.all Char.isDigit then tonumber cpu else none

section Visit

variable (eventStr coreStr : List Char)

/-- The loop over the CPUs of a socket: the flag of the socket, `switchedFlag` and the strings. It
stops only if the flag was set. -/
def visitSocket (cpu : Option ℕ) (flag : Bool) : List ℕ → Bool × Bool × List (List Char)
  | [] => (flag, false, [])
  | c :: socket =>
      if some c = cpu then
        if flag then (false, true, [eventStr])
        else
          let (flag, _, strs) := visitSocket cpu flag socket
          (flag, true, coreStr :: strs)
      else visitSocket cpu flag socket

/-- The loop over `socketList` -/
def visitSockets (cpu : Option ℕ) :
    ℕ → (ℕ → Bool) → List (List ℕ) → (ℕ → Bool) × Bool × List (List Char)
  | _, flags, [] => (flags, false, [])
  | sidx, flags, socket :: sockets =>
      let (flag, switched, strs) := visitSocket eventStr coreStr cpu (flags sidx) socket
      let flags := fun s => if s = sidx then flag else flags s
      if switched then (flags, true, strs)
      else
        let (flags, uncore, strs') := visitSockets cpu (sidx + 1) flags sockets
        (flags, uncore, strs ++ strs')

/-- The loop over the CPUs of an expression; it ends with the first CPU that is on a socket. -/
def visitCpus (sockets : List (List ℕ)) :
    (ℕ → Bool) → List (List Char) → (ℕ → Bool) × List (List Char)
  | flags, [] => (flags, [])
  | flags, cpu :: cpus =>
      let (flags, uncore, strs) := visitSockets eventStr coreStr (cpuNumber cpu) 0 flags sockets
      if uncore then (flags, strs)
      else
        let (flags, strs') := visitCpus sockets flags cpus
        (flags, strs ++ strs')

/-- The loop over `cpuexprs` -/
def visitProcesses (sockets : List (List ℕ)) : (ℕ → Bool) → List (List Char) → List (List Char)
  | _, [] => []
  | flags, cpuexpr :: cpuexprs =>
      let (flags, strs) := visitCpus eventStr coreStr sockets flags (stringsplit cpuexpr ',')
      strs ++ visitProcesses sockets flags cpuexprs

end Visit

/-! ## The function -/

/-- The strings of a group -/
def groupStrings (sockets : List (List ℕ)) (gdata : GroupData) (cpuexprs : List (List Char)) :
    Option (List (List Char)) := do
  let events ← gdata.events
  let (coreevents, uncoreevents) ← splitEvents events
  some (visitProcesses (fullEventString coreevents uncoreevents) (createEventString coreevents)
    sockets (fun s => decide (s < sockets.length)) cpuexprs)

/-- `perfexprs` and `grouplist`, or no value where the script ends in an error. A group without data
is left out. -/
def setPerfStrings (W : GroupFolders) (domains : List LuaDomain) (perflist : List (List Char))
    (cpuexprs : List (List Char)) : Option (List (Option (List (List Char))) × List GroupData) := do
  let groups ← perflist.mapM fun perfStr => do
    match ← W.getGroupdata perfStr with
    | none => some none
    | some gdata =>
        let strs ← groupStrings (socketList domains) gdata cpuexprs
        some (some (gdata, strs))
  some (groups.map (·.map Prod.snd), groups.filterMap (·.map Prod.fst))

/-! ## What the strings should be -/

/-- A process is the list of its CPUs. -/
def cpuExpr (process : List ℕ) : List Char := [','].intercalate (process.map decimal)

section Law

variable (sockets : List (List ℕ)) (processes : List (List ℕ)) (es : List GroupEvent)
  (strs : List (List Char))

def socketOf (cpu : ℕ) : ℕ := sockets.findIdx fun socket => decide (cpu ∈ socket)

/-- Each CPU is on one socket, and the processes run on such CPUs. -/
structure OnSockets : Prop where
  nodup : sockets.flatten.Nodup
  ne_nil : ∀ p ∈ processes, p ≠ []
  known : ∀ p ∈ processes, ∀ cpu ∈ p, cpu ∈ sockets.flatten

/-- Process `i` has a CPU on socket `s`. -/
def RunsOn (i s : ℕ) : Prop := ∃ p, processes[i]? = some p ∧ s ∈ p.map (socketOf sockets)

def Measures (e : GroupEvent) (str : List Char) : Prop :=
  ∃ token, e.token? = some token ∧ token ∈ stringsplit str ','

/-- One string for each process with all the core events, and the uncore events for one process on
each socket -/
structure EventStringsRight : Prop where
  length : strs.length = processes.length
  core : ∀ str ∈ strs, ∀ e ∈ es, e.isCore = true → Measures e str
  atMost : ∀ s i j, RunsOn sockets processes i s → RunsOn sockets processes j s →
    (∃ str, strs[i]? = some str ∧ ∃ e ∈ es, e.isCore = false ∧ Measures e str) →
    (∃ str, strs[j]? = some str ∧ ∃ e ∈ es, e.isCore = false ∧ Measures e str) → i = j
  atLeast : ∀ s i, RunsOn sockets processes i s → ∃ j str, RunsOn sockets processes j s ∧
    strs[j]? = some str ∧ ∀ e ∈ es, e.isCore = false → Measures e str

/-- The socket of the first CPU -/
def homeSocket (process : List ℕ) : ℕ := socketOf sockets (process.headD 0)

/-- No process before `i` begins on its socket. -/
def BeginsFirst (i : ℕ) : Prop :=
  ∃ p, processes[i]? = some p ∧ homeSocket sockets p ∉ (processes.take i).map (homeSocket sockets)

/-- The processes that begin first on a socket have CPUs on all the sockets in use, and no two of
them on the same one. -/
structure OwnersApart : Prop where
  apart : ∀ s i j, BeginsFirst sockets processes i → BeginsFirst sockets processes j →
    RunsOn sockets processes i s → RunsOn sockets processes j s → i = j
  covered : ∀ s i, RunsOn sockets processes i s →
    ∃ j, BeginsFirst sockets processes j ∧ RunsOn sockets processes j s

end Law

/-- An event and a counter with plain names -/
def GroupEvent.Named (e : GroupEvent) : Prop :=
  ∃ event counter, e.event = some event ∧ e.counter = some counter ∧
    ',' ∉ event ∧ ':' ∉ event ∧ ',' ∉ counter

/-- The events of a group -/
structure NamesEvents (W : GroupFolders) (group : List Char) (es : List GroupEvent) : Prop where
  data : ∃ gdata, W.getGroupdata group = some (some gdata) ∧ gdata.events = some es
  names : ∀ e ∈ es, e.Named

/-- `setPerfStrings` gives each group the right strings. -/
def PerfStringsRight (W : GroupFolders) (domains : List LuaDomain)
    (perflist : List (List Char × List GroupEvent)) (processes : List (List ℕ)) : Prop :=
  ∃ perfexprs grouplist,
    setPerfStrings W domains (perflist.map Prod.fst) (processes.map cpuExpr) =
      some (perfexprs, grouplist) ∧
    List.Forall₂ (fun (g : List Char × List GroupEvent) strs? => ∃ strs, strs? = some strs ∧
      EventStringsRight (socketList domains) processes g.2 strs) perflist perfexprs

/-! ## The loops -/

section Loops

variable {eventStr coreStr : List Char} {sockets : List (List ℕ)} {socket : List ℕ} {cpu : ℕ}
  {flags : ℕ → Bool} {processes : List (List ℕ)}

theorem visitSocket_absent (h : cpu ∉ socket) (flag : Bool) :
    visitSocket eventStr coreStr (some cpu) flag socket = (flag, false, []) := by
  induction socket with
  | nil => rfl
  | cons c socket ih =>
      rw [List.mem_cons, not_or] at h
      rw [visitSocket, if_neg fun heq => h.1 (Option.some.inj heq).symm, ih h.2]

theorem visitSocket_mem (hnodup : socket.Nodup) (h : cpu ∈ socket) (flag : Bool) :
    visitSocket eventStr coreStr (some cpu) flag socket =
      (false, true, [if flag then eventStr else coreStr]) := by
  induction socket with
  | nil => cases h
  | cons c socket ih =>
      obtain ⟨hc, hnodup⟩ := List.nodup_cons.mp hnodup
      rw [visitSocket]
      by_cases heq : c = cpu
      · subst heq
        rw [if_pos rfl, visitSocket_absent hc]
        cases flag <;> rfl
      · have hmem : cpu ∈ socket := by
          rcases List.mem_cons.mp h with rfl | hmem
          · exact absurd rfl heq
          · exact hmem
        rw [if_neg fun h' => heq (Option.some.inj h'), ih hnodup hmem]

/-- **A CPU with a socket** takes the flag of this socket. -/
theorem visitSockets_known (hnodup : sockets.flatten.Nodup) (h : cpu ∈ sockets.flatten)
    (sidx : ℕ) (flags : ℕ → Bool) :
    visitSockets eventStr coreStr (some cpu) sidx flags sockets =
      (fun s => flags s && decide (s ≠ sidx + socketOf sockets cpu), true,
        [if flags (sidx + socketOf sockets cpu) then eventStr else coreStr]) := by
  induction sockets generalizing sidx flags with
  | nil => cases h
  | cons socket sockets ih =>
      rw [List.flatten_cons, List.nodup_append] at hnodup
      obtain ⟨hsocket, hsockets, hapart⟩ := hnodup
      rw [visitSockets]
      by_cases hcpu : cpu ∈ socket
      · have hzero : socketOf (socket :: sockets) cpu = 0 := by
          simp [socketOf, List.findIdx_cons, hcpu]
        have hflags : (fun s => if s = sidx then false else flags s) =
            fun s => flags s && decide (s ≠ sidx) := by
          funext s
          by_cases hs : s = sidx <;> simp [hs]
        rw [visitSocket_mem hsocket hcpu, hzero]
        show ((fun s => if s = sidx then false else flags s), true, _) = _
        rw [hflags]
        rfl
      · have hsucc : socketOf (socket :: sockets) cpu = socketOf sockets cpu + 1 := by
          simp [socketOf, List.findIdx_cons, hcpu]
        have hmem : cpu ∈ sockets.flatten := by
          rw [List.flatten_cons, List.mem_append] at h
          exact h.resolve_left hcpu
        have hflags : (fun s => if s = sidx then flags sidx else flags s) = flags := by
          funext s
          split
          · next hs => rw [hs]
          · rfl
        rw [visitSocket_absent hcpu]
        dsimp only
        rw [hflags, ih hsockets hmem, hsucc, Nat.add_right_comm, ← Nat.add_assoc]
        rfl

theorem cpuNumber_decimal (n : ℕ) : cpuNumber (decimal n) = some n := by
  have hdigits : (decimal n).all Char.isDigit = true :=
    List.all_eq_true.mpr fun c hc => isDigit_of_mem_decimal hc
  rw [cpuNumber, if_pos hdigits, tonumber_decimal]

theorem stringsplit_cpuExpr {p : List ℕ} (hne : p ≠ []) :
    stringsplit (cpuExpr p) ',' = p.map decimal := by
  have hwords : ∀ w ∈ p.map decimal, ',' ∉ w := by
    intro w hw
    obtain ⟨n, -, rfl⟩ := List.mem_map.mp hw
    exact not_mem_decimal (by decide) n
  have hsplit := List.splitOn_intercalate ',' hwords (by simpa using hne)
  unfold stringsplit cpuExpr
  rw [if_neg, hsplit]
  intro hnil
  obtain ⟨n, p, rfl⟩ := List.exists_cons_of_ne_nil hne
  rw [hnil] at hsplit
  exact decimal_ne_nil n (List.cons_eq_cons.mp hsplit).1.symm

/-- **One string for each process**: the first to begin on a socket gets the uncore events. -/
theorem visitProcesses_known (h : OnSockets sockets processes) (flags : ℕ → Bool) :
    visitProcesses eventStr coreStr sockets flags (processes.map cpuExpr) =
      (FirstCome.turns flags (processes.map (homeSocket sockets))).map
        fun free => if free then eventStr else coreStr := by
  obtain ⟨hnodup, hne, hknown⟩ := h
  induction processes generalizing flags with
  | nil => rfl
  | cons p processes ih =>
      obtain ⟨hp, hrest⟩ := List.forall_mem_cons.mp hne
      obtain ⟨hcpus, hknown'⟩ := List.forall_mem_cons.mp hknown
      obtain ⟨cpu, cpus, rfl⟩ := List.exists_cons_of_ne_nil hp
      have hfirst : visitCpus eventStr coreStr sockets flags ((cpu :: cpus).map decimal) =
          (fun s => flags s && decide (s ≠ homeSocket sockets (cpu :: cpus)),
            [if flags (homeSocket sockets (cpu :: cpus)) then eventStr else coreStr]) := by
        rw [List.map_cons, visitCpus, cpuNumber_decimal,
          visitSockets_known hnodup (hcpus cpu List.mem_cons_self)]
        simp [homeSocket]
      rw [List.map_cons, visitProcesses, stringsplit_cpuExpr hp, hfirst, List.map_cons]
      dsimp only
      rw [ih _ hrest hknown']
      rfl

end Loops

/-! ## The strings -/

section Strings

variable {es : List GroupEvent} {e : GroupEvent}

def GroupEvent.token (e : GroupEvent) : List Char := e.token?.getD []

theorem GroupEvent.Named.token?_eq (h : e.Named) : e.token? = some e.token := by
  obtain ⟨event, counter, hevent, hcounter, -⟩ := h
  simp [GroupEvent.token, GroupEvent.token?, hevent, hcounter]

theorem GroupEvent.Named.not_comma (h : e.Named) : ',' ∉ e.token := by
  obtain ⟨event, counter, hevent, hcounter, hcomma, -, hcomma'⟩ := h
  simp [GroupEvent.token, GroupEvent.token?, hevent, hcounter, hcomma, hcomma']

theorem GroupEvent.Named.token_ne_nil (h : e.Named) : e.token ≠ [] := by
  obtain ⟨event, counter, hevent, hcounter, -⟩ := h
  simp [GroupEvent.token, GroupEvent.token?, hevent, hcounter]

theorem GroupEvent.Named.counter_eq {e' : GroupEvent} (h : e.Named) (h' : e'.Named)
    (htoken : e.token = e'.token) : e.counter = e'.counter := by
  obtain ⟨event, counter, hevent, hcounter, -, hcolon, -⟩ := h
  obtain ⟨event', counter', hevent', hcounter', -, hcolon', -⟩ := h'
  simp only [GroupEvent.token, GroupEvent.token?, hevent, hcounter, hevent', hcounter',
    Option.bind_eq_bind, Option.bind_some, Option.getD_some] at htoken
  rcases List.append_eq_append_iff.mp htoken with ⟨a, ha, ha'⟩ | ⟨a, ha, ha'⟩
  · cases a with
    | nil => rw [hcounter, hcounter', (List.cons_eq_cons.mp ha').2]
    | cons c a =>
        obtain ⟨rfl, -⟩ := List.cons_eq_cons.mp ha'
        exact absurd (ha ▸ List.mem_append_right _ List.mem_cons_self) hcolon'
  · cases a with
    | nil => rw [hcounter, hcounter', (List.cons_eq_cons.mp ha').2]
    | cons c a =>
        obtain ⟨rfl, -⟩ := List.cons_eq_cons.mp ha'
        exact absurd (ha ▸ List.mem_append_right _ List.mem_cons_self) hcolon

theorem tokens_plain (h : ∀ e ∈ es, e.Named) : ∀ w ∈ es.map GroupEvent.token, ',' ∉ w := by
  intro w hw
  obtain ⟨e, he, rfl⟩ := List.mem_map.mp hw
  exact (h e he).not_comma

theorem createEventString_eq (h : ∀ e ∈ es, e.Named) :
    createEventString es = ((es.map GroupEvent.token).flatMap (',' :: ·)).drop 1 := by
  cases es with
  | nil => rfl
  | cons e es =>
      obtain ⟨he, hes⟩ := List.forall_mem_cons.mp h
      have hrest : (es.flatMap fun e => (e.token?.map (',' :: ·)).getD []) =
          (es.map GroupEvent.token).flatMap (',' :: ·) := by
        rw [List.flatMap_map]
        refine List.flatMap_congr fun e' he' => ?_
        rw [(hes e' he').token?_eq]
        rfl
      rw [createEventString, hrest]
      rfl

theorem stringsplit_createEventString (h : ∀ e ∈ es, e.Named) :
    stringsplit (createEventString es) ',' = es.map GroupEvent.token := by
  rw [createEventString_eq h]
  refine stringsplit_words (tokens_plain h) ?_
  cases es with
  | nil => simp
  | cons e es => simpa using (h e List.mem_cons_self).token_ne_nil

/-- What a process measures with the whole string -/
theorem mem_fullEventString {cs us : List GroupEvent} (hcs : ∀ e ∈ cs, e.Named)
    (hus : ∀ e ∈ us, e.Named) (he : e ∈ cs ++ us) :
    e.token ∈ stringsplit (fullEventString cs us) ',' := by
  cases us with
  | nil =>
      have hfull : fullEventString cs [] = createEventString cs := List.append_nil _
      rw [List.append_nil] at he
      rw [hfull, stringsplit_createEventString hcs]
      exact List.mem_map_of_mem he
  | cons u us =>
      have hall : ∀ e ∈ cs ++ u :: us, e.Named := by
        intro e he
        rcases List.mem_append.mp he with he | he
        · exact hcs e he
        · exact hus e he
      have huncore : ',' :: createEventString (u :: us) =
          ((u :: us).map GroupEvent.token).flatMap (',' :: ·) := by
        rw [createEventString_eq hus]
        rfl
      have hfull : fullEventString cs (u :: us) = createEventString cs ++
          ((u :: us).map GroupEvent.token).flatMap (',' :: ·) := by
        rw [fullEventString, if_pos (by simp), huncore]
      have hne : fullEventString cs (u :: us) ≠ [] := by simp [hfull]
      rw [stringsplit, if_neg hne, hfull]
      cases cs with
      | nil =>
          -- the string begins with a comma
          rw [createEventString, splitOn_flatMap List.not_mem_nil (tokens_plain hus)]
          exact List.mem_cons_of_mem _ (List.mem_map_of_mem he)
      | cons c cs =>
          have hsplit : createEventString (c :: cs) ++
              ((u :: us).map GroupEvent.token).flatMap (',' :: ·) =
              c.token ++ ((cs ++ u :: us).map GroupEvent.token).flatMap (',' :: ·) := by
            rw [createEventString_eq hcs, List.map_append, List.flatMap_append, ← List.append_assoc]
            rfl
          have hrest : ∀ e ∈ cs ++ u :: us, e.Named :=
            fun e he => hall e (List.mem_cons_of_mem _ he)
          rw [hsplit, splitOn_flatMap (hall c List.mem_cons_self).not_comma (tokens_plain hrest)]
          exact List.mem_map_of_mem he

theorem splitEvents_named (h : ∀ e ∈ es, e.Named) :
    splitEvents es = some (es.filter GroupEvent.isCore, es.filter (!GroupEvent.isCore ·)) := by
  rw [splitEvents, if_pos]
  refine List.all_eq_true.mpr fun e he => ?_
  obtain ⟨event, counter, -, hcounter, -⟩ := h e he
  rw [hcounter]
  rfl

theorem measures_full (h : ∀ e ∈ es, e.Named) (he : e ∈ es) :
    Measures e (fullEventString (es.filter GroupEvent.isCore)
      (es.filter (!GroupEvent.isCore ·))) := by
  refine ⟨_, (h e he).token?_eq, mem_fullEventString
    (fun e' he' => h e' (List.mem_of_mem_filter he'))
    (fun e' he' => h e' (List.mem_of_mem_filter he')) ?_⟩
  rw [List.mem_append, List.mem_filter, List.mem_filter]
  cases hcore : e.isCore with
  | true => exact Or.inl ⟨he, rfl⟩
  | false => exact Or.inr ⟨he, rfl⟩

/-- The string for the cores has the core events only. -/
theorem measures_core_iff (h : ∀ e ∈ es, e.Named) (he : e ∈ es) :
    Measures e (createEventString (es.filter GroupEvent.isCore)) ↔ e.isCore = true := by
  have hcore : ∀ e ∈ es.filter GroupEvent.isCore, e.Named :=
    fun e' he' => h e' (List.mem_of_mem_filter he')
  unfold Measures
  rw [stringsplit_createEventString hcore, (h e he).token?_eq]
  constructor
  · rintro ⟨w, hw, hmem⟩
    obtain rfl := Option.some.inj hw
    obtain ⟨e', he', htoken⟩ := List.mem_map.mp hmem
    have hcounter := (h e' (List.mem_of_mem_filter he')).counter_eq (h e he) htoken
    have hcore' := (List.mem_filter.mp he').2
    unfold GroupEvent.isCore at hcore' ⊢
    rwa [← hcounter]
  · intro htrue
    exact ⟨_, rfl, List.mem_map_of_mem (List.mem_filter.mpr ⟨he, htrue⟩)⟩

end Strings

/-! ## Which process measures what -/

section Owners

variable {sockets processes : List (List ℕ)} {es : List GroupEvent} {i s : ℕ}

/-- The strings of a group, process by process -/
def ownedStrings (sockets processes : List (List ℕ)) (es : List GroupEvent) : List (List Char) :=
  (FirstCome.turns (fun s => decide (s < sockets.length))
    (processes.map (homeSocket sockets))).map fun free =>
      if free then
        fullEventString (es.filter GroupEvent.isCore) (es.filter (!GroupEvent.isCore ·))
      else createEventString (es.filter GroupEvent.isCore)

theorem groupStrings_eq {gdata : GroupData} (h : OnSockets sockets processes)
    (hdata : gdata.events = some es) (hes : ∀ e ∈ es, e.Named) :
    groupStrings sockets gdata (processes.map cpuExpr) =
      some (ownedStrings sockets processes es) := by
  rw [groupStrings, hdata]
  show (splitEvents es >>= _) = _
  rw [splitEvents_named hes]
  show some (visitProcesses _ _ _ _ _) = _
  rw [visitProcesses_known h]
  rfl

theorem homeSocket_lt (h : OnSockets sockets processes) {p : List ℕ} (hp : p ∈ processes) :
    homeSocket sockets p < sockets.length := by
  obtain ⟨cpu, cpus, rfl⟩ := List.exists_cons_of_ne_nil (h.ne_nil p hp)
  obtain ⟨socket, hsocket, hcpu⟩ :=
    List.mem_flatten.mp (h.known _ hp cpu List.mem_cons_self)
  exact List.findIdx_lt_length_of_exists ⟨socket, hsocket, by simpa using hcpu⟩

theorem length_ownedStrings : (ownedStrings sockets processes es).length = processes.length := by
  rw [ownedStrings, List.length_map, FirstCome.length_turns, List.length_map]

/-- The first process to begin on a socket has all the events. -/
theorem ownedStrings_first (h : OnSockets sockets processes)
    (hfirst : BeginsFirst sockets processes i) :
    (ownedStrings sockets processes es)[i]? = some
      (fullEventString (es.filter GroupEvent.isCore) (es.filter (!GroupEvent.isCore ·))) := by
  obtain ⟨p, hp, hnew⟩ := hfirst
  have hhome : (processes.map (homeSocket sockets))[i]? = some (homeSocket sockets p) := by
    rw [List.getElem?_map, hp]
    rfl
  have hlt := homeSocket_lt h (List.mem_of_getElem? hp)
  rw [List.map_take] at hnew
  rw [ownedStrings, List.getElem?_map, FirstCome.getElem?_turns hhome]
  simp [hlt, hnew]

theorem ownedStrings_later {str : List Char} (hlater : ¬BeginsFirst sockets processes i)
    (hstr : (ownedStrings sockets processes es)[i]? = some str) :
    str = createEventString (es.filter GroupEvent.isCore) := by
  obtain ⟨hi, -⟩ := List.getElem?_eq_some_iff.mp hstr
  rw [length_ownedStrings] at hi
  have hp := List.getElem?_eq_getElem hi
  have hhome : (processes.map (homeSocket sockets))[i]? =
      some (homeSocket sockets processes[i]) := by
    rw [List.getElem?_map, hp]
    rfl
  have hold : homeSocket sockets processes[i] ∈
      (processes.map (homeSocket sockets)).take i := by
    by_contra hnew
    rw [← List.map_take] at hnew
    exact hlater ⟨_, hp, hnew⟩
  rw [ownedStrings, List.getElem?_map, FirstCome.getElem?_turns hhome] at hstr
  simpa [hold] using hstr.symm

theorem RunsOn.lt (h : RunsOn sockets processes i s) : i < processes.length := by
  obtain ⟨p, hp, -⟩ := h
  exact (List.getElem?_eq_some_iff.mp hp).1

/-- **A process has uncore events just if it begins first.** -/
theorem measuresUncore_iff (h : OnSockets sockets processes) (hes : ∀ e ∈ es, e.Named)
    (huncore : ∃ e ∈ es, e.isCore = false) :
    (∃ str, (ownedStrings sockets processes es)[i]? = some str ∧
      ∃ e ∈ es, e.isCore = false ∧ Measures e str) ↔ BeginsFirst sockets processes i := by
  constructor
  · rintro ⟨str, hstr, e, he, hcore, hmeasures⟩
    by_contra hlater
    rw [ownedStrings_later hlater hstr] at hmeasures
    rw [(measures_core_iff hes he).mp hmeasures] at hcore
    cases hcore
  · intro hfirst
    obtain ⟨e, he, hcore⟩ := huncore
    exact ⟨_, ownedStrings_first h hfirst, e, he, hcore, measures_full hes he⟩

theorem exists_ownedString (hi : i < processes.length) :
    ∃ str, (ownedStrings sockets processes es)[i]? = some str :=
  ⟨_, List.getElem?_eq_getElem (length_ownedStrings.symm ▸ hi)⟩

theorem measures_core (h : OnSockets sockets processes) (hes : ∀ e ∈ es, e.Named)
    {str : List Char} (hstr : str ∈ ownedStrings sockets processes es) {e : GroupEvent}
    (he : e ∈ es) (hcore : e.isCore = true) : Measures e str := by
  obtain ⟨i, hi⟩ := List.mem_iff_getElem?.mp hstr
  by_cases hfirst : BeginsFirst sockets processes i
  · rw [ownedStrings_first h hfirst] at hi
    obtain rfl := Option.some.inj hi
    exact measures_full hes he
  · rw [ownedStrings_later hfirst hi]
    exact (measures_core_iff hes he).mpr hcore

/-- **The strings of a group are right** if nothing is asked of the sockets, or these are shared
out. -/
theorem eventStringsRight_iff (h : OnSockets sockets processes) (hes : ∀ e ∈ es, e.Named) :
    EventStringsRight sockets processes es (ownedStrings sockets processes es) ↔
      ((∃ e ∈ es, e.isCore = false) → OwnersApart sockets processes) := by
  constructor
  · intro hright huncore
    constructor
    · intro s i j hi hj hirun hjrun
      exact hright.atMost s i j hirun hjrun ((measuresUncore_iff h hes huncore).mpr hi)
        ((measuresUncore_iff h hes huncore).mpr hj)
    · intro s i hirun
      obtain ⟨j, str, hjrun, hstr, hall⟩ := hright.atLeast s i hirun
      obtain ⟨e, he, hcore⟩ := huncore
      exact ⟨j, (measuresUncore_iff h hes ⟨e, he, hcore⟩).mp
        ⟨str, hstr, e, he, hcore, hall e he hcore⟩, hjrun⟩
  · intro howners
    refine ⟨length_ownedStrings, fun str hstr e he => measures_core h hes hstr he, ?_, ?_⟩
    · intro s i j hirun hjrun hi hj
      have huncore : ∃ e ∈ es, e.isCore = false := by
        obtain ⟨str, -, e, he, hcore, -⟩ := hi
        exact ⟨e, he, hcore⟩
      exact (howners huncore).apart s i j ((measuresUncore_iff h hes huncore).mp hi)
        ((measuresUncore_iff h hes huncore).mp hj) hirun hjrun
    · intro s i hirun
      by_cases huncore : ∃ e ∈ es, e.isCore = false
      · obtain ⟨j, hj, hjrun⟩ := (howners huncore).covered s i hirun
        exact ⟨j, _, hjrun, ownedStrings_first h hj, fun e he _ => measures_full hes he⟩
      · obtain ⟨str, hstr⟩ : ∃ str, (ownedStrings sockets processes es)[i]? = some str :=
          exists_ownedString hirun.lt
        exact ⟨i, str, hirun, hstr, fun e he hcore => absurd ⟨e, he, hcore⟩ huncore⟩

/-- Processes that stay on one socket share nothing. -/
theorem ownersApart_of_within (hne : ∀ p ∈ processes, p ≠ [])
    (h : ∀ p ∈ processes, ∀ cpu ∈ p, socketOf sockets cpu = homeSocket sockets p) :
    OwnersApart sockets processes := by
  have hrun : ∀ {i s}, RunsOn sockets processes i s →
      (processes.map (homeSocket sockets))[i]? = some s := by
    rintro i s ⟨p, hp, hs⟩
    obtain ⟨cpu, hcpu, rfl⟩ := List.mem_map.mp hs
    rw [List.getElem?_map, hp, h p (List.mem_of_getElem? hp) cpu hcpu]
    rfl
  have hfirst : ∀ {i s}, BeginsFirst sockets processes i → RunsOn sockets processes i s →
      s ∉ (processes.map (homeSocket sockets)).take i := by
    rintro i s ⟨p, hp, hnew⟩ hirun
    have hs := hrun hirun
    rw [List.getElem?_map, hp] at hs
    obtain rfl := Option.some.inj hs
    rwa [List.map_take] at hnew
  have hbefore : ∀ {i j s}, i < j → (processes.map (homeSocket sockets))[i]? = some s →
      s ∈ (processes.map (homeSocket sockets)).take j := by
    intro i j s hlt hs
    refine List.mem_of_getElem? (i := i) ?_
    rw [List.getElem?_take_of_lt hlt, hs]
  constructor
  · intro s i j hi hj hirun hjrun
    rcases Nat.lt_trichotomy i j with hlt | heq | hgt
    · exact absurd (hbefore hlt (hrun hirun)) (hfirst hj hjrun)
    · exact heq
    · exact absurd (hbefore hgt (hrun hjrun)) (hfirst hi hirun)
  · intro s i hirun
    have hmem : s ∈ processes.map (homeSocket sockets) := List.mem_of_getElem? (hrun hirun)
    have hlt := List.idxOf_lt_length_of_mem hmem
    have hget : (processes.map (homeSocket sockets))[
        (processes.map (homeSocket sockets)).idxOf s]? = some s := by
      rw [List.getElem?_eq_getElem hlt, List.getElem_idxOf]
    generalize hj : (processes.map (homeSocket sockets)).idxOf s = j at hget
    rw [List.getElem?_map] at hget
    obtain ⟨p, hp, rfl⟩ := Option.map_eq_some_iff.mp hget
    refine ⟨j, ⟨p, hp, ?_⟩, p, hp, ?_⟩
    · rw [List.map_take, List.mem_take_iff_idxOf_lt hmem, hj]
      exact lt_irrefl j
    · obtain ⟨cpu, cpus, rfl⟩ := List.exists_cons_of_ne_nil (hne p (List.mem_of_getElem? hp))
      exact List.mem_map_of_mem List.mem_cons_self

end Owners

/-! ## All groups -/

section Groups

variable {W : GroupFolders} {domains : List LuaDomain} {processes : List (List ℕ)}
  {perflist : List (List Char × List GroupEvent)}

/-- **The function computes the strings group by group.** -/
theorem setPerfStrings_eq (h : OnSockets (socketList domains) processes)
    (hgroups : ∀ g ∈ perflist, NamesEvents W g.1 g.2) :
    ∃ grouplist, setPerfStrings W domains (perflist.map Prod.fst) (processes.map cpuExpr) =
      some (perflist.map fun g => some (ownedStrings (socketList domains) processes g.2),
        grouplist) := by
  have hloop : ∃ groups : List (Option (GroupData × List (List Char))),
      (perflist.map Prod.fst).mapM (fun perfStr => do
        match ← W.getGroupdata perfStr with
        | none => some none
        | some gdata =>
            let strs ← groupStrings (socketList domains) gdata (processes.map cpuExpr)
            some (some (gdata, strs))) = some groups ∧
      groups.map (·.map Prod.snd) =
        perflist.map fun g => some (ownedStrings (socketList domains) processes g.2) := by
    induction perflist with
    | nil => exact ⟨[], rfl, rfl⟩
    | cons g perflist ih =>
        obtain ⟨hg, hgroups⟩ := List.forall_mem_cons.mp hgroups
        obtain ⟨⟨gdata, hdata, hevents⟩, hnames⟩ := hg
        obtain ⟨groups, hmap, hsnd⟩ := ih hgroups
        refine ⟨some (gdata, ownedStrings (socketList domains) processes g.2) :: groups, ?_, ?_⟩
        · rw [List.map_cons, List.mapM_cons, hmap, hdata]
          dsimp only [Option.bind_eq_bind, Option.bind_some]
          rw [groupStrings_eq h hevents hnames]
          rfl
        · rw [List.map_cons, List.map_cons, hsnd]
          rfl
  obtain ⟨groups, hmap, hsnd⟩ := hloop
  refine ⟨groups.filterMap (·.map Prod.fst), ?_⟩
  rw [setPerfStrings, hmap, ← hsnd]
  rfl

/-- **The event strings are right just if no group has uncore events**, or the processes that begin
first on a socket share out the sockets. -/
theorem setPerfStrings_iff (h : OnSockets (socketList domains) processes)
    (hgroups : ∀ g ∈ perflist, NamesEvents W g.1 g.2) :
    PerfStringsRight W domains perflist processes ↔
      ((∃ g ∈ perflist, ∃ e ∈ g.2, e.isCore = false) →
        OwnersApart (socketList domains) processes) := by
  obtain ⟨grouplist, heq⟩ := setPerfStrings_eq h hgroups
  have hright : PerfStringsRight W domains perflist processes ↔ ∀ g ∈ perflist,
      EventStringsRight (socketList domains) processes g.2
        (ownedStrings (socketList domains) processes g.2) := by
    unfold PerfStringsRight
    rw [heq]
    constructor
    · rintro ⟨perfexprs, grouplist', hsome, hall⟩ g hg
      obtain ⟨rfl, -⟩ := Prod.mk.inj (Option.some.inj hsome)
      rw [List.forall₂_map_right_iff, List.forall₂_same] at hall
      obtain ⟨strs, hstrs, hgood⟩ := hall g hg
      obtain rfl := Option.some.inj hstrs
      exact hgood
    · intro hall
      refine ⟨_, grouplist, rfl, ?_⟩
      rw [List.forall₂_map_right_iff, List.forall₂_same]
      exact fun g hg => ⟨_, rfl, hall g hg⟩
  rw [hright]
  constructor
  · rintro hall ⟨g, hg, huncore⟩
    exact (eventStringsRight_iff h (hgroups g hg).names).mp (hall g hg) huncore
  · intro howners g hg
    exact (eventStringsRight_iff h (hgroups g hg).names).mpr fun huncore =>
      howners ⟨g, hg, huncore⟩

end Groups

/-! ## Two sockets -/

def socketPair : List LuaDomain := [
  ⟨"N".toList, [0, 1, 8, 9]⟩, ⟨"S0".toList, [0, 1]⟩, ⟨"S1".toList, [8, 9]⟩,
  ⟨"M0".toList, [0, 1, 8, 9]⟩]

/-- A machine without performance groups -/
def noGroups : GroupFolders where
  cpuInfo := some ⟨"sandybridgeEP".toList, 1⟩
  groupfolder := "/share".toList
  home := "/home".toList
  ls _ := some []
  file _ := none

def lookupGroup : List Char × List GroupEvent :=
  ("INSTR_RETIRED_ANY:FIXC0,LLC_LOOKUP_ANY:CBOX0C0".toList,
    [{ event := "INSTR_RETIRED_ANY".toList, counter := "FIXC0".toList },
      { event := "LLC_LOOKUP_ANY".toList, counter := "CBOX0C0".toList }])

theorem namesEvents_lookupGroup : NamesEvents noGroups lookupGroup.1 lookupGroup.2 where
  data := ⟨newGroupdata lookupGroup.1 1, by decide +kernel, by decide +kernel⟩
  names := by
    refine List.forall_mem_cons.mpr ⟨?_, List.forall_mem_singleton.mpr ?_⟩
    · exact ⟨_, _, rfl, rfl, by decide, by decide, by decide⟩
    · exact ⟨_, _, rfl, rfl, by decide, by decide, by decide⟩

/-- Two processes on the first socket and one on the second -/
theorem setPerfStrings_three :
    OnSockets (socketList socketPair) [[0], [1], [8, 9]] ∧
      (∀ g ∈ [lookupGroup], NamesEvents noGroups g.1 g.2) ∧
      PerfStringsRight noGroups socketPair [lookupGroup] [[0], [1], [8, 9]] := by
  have h : OnSockets (socketList socketPair) [[0], [1], [8, 9]] :=
    ⟨by decide +kernel, by decide, by decide +kernel⟩
  have hgroups : ∀ g ∈ [lookupGroup], NamesEvents noGroups g.1 g.2 :=
    List.forall_mem_singleton.mpr namesEvents_lookupGroup
  exact ⟨h, hgroups, (setPerfStrings_iff h hgroups).mpr fun _ =>
    ownersApart_of_within h.ne_nil (by decide +kernel)⟩

/-- A process that begins on the first socket and goes on to the second has uncore events, and so
has the one that begins on the second. -/
theorem not_perfStringsRight_spanning :
    ¬PerfStringsRight noGroups socketPair [lookupGroup] [[0, 8], [9]] := by
  have hrun : (setPerfStrings noGroups socketPair [lookupGroup.1]
      ([[0, 8], [9]].map cpuExpr)).map Prod.fst =
      some [some [lookupGroup.1, lookupGroup.1]] := by
    decide +kernel
  rintro ⟨perfexprs, grouplist, heq, hall⟩
  have hfst : perfexprs = [some [lookupGroup.1, lookupGroup.1]] := by
    have hsome := congrArg (Option.map Prod.fst) heq
    exact Option.some.inj (hsome.symm.trans hrun)
  rw [hfst, List.forall₂_cons] at hall
  obtain ⟨⟨strs, hstrs, hright⟩, -⟩ := hall
  obtain rfl := Option.some.inj hstrs
  have huncore : ∃ e ∈ lookupGroup.2, e.isCore = false ∧ Measures e lookupGroup.1 :=
    ⟨{ event := "LLC_LOOKUP_ANY".toList, counter := "CBOX0C0".toList }, by decide +kernel,
      by decide +kernel, "LLC_LOOKUP_ANY:CBOX0C0".toList, by decide +kernel, by decide +kernel⟩
  have hsame : 0 = 1 := hright.atMost 1 0 1 ⟨_, rfl, by decide +kernel⟩ ⟨_, rfl, by decide +kernel⟩
    ⟨_, rfl, huncore⟩ ⟨_, rfl, huncore⟩
  cases hsame

end Likwid
