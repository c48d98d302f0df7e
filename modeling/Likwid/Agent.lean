import Likwid.GroupTable
import Likwid.GroupFiles
import Likwid.Lib.Pattern
import Likwid.Queries

/-!
# The monitoring daemon (`likwid-agent.lua`)

The agent adds the event strings of its groups, drops the group numbers it gets, and names the
groups by their position in its own table from then on. The library numbers the groups it has
accepted. What the loop asks of the library is recorded, with the state it is asked in.
-/

namespace Likwid

open Pattern

/-! ## What the agent asks -/

/-- An operation of the loop, for the group at a position of the agent's table -/
structure Asked where
  position : ℕ
  before : Perfmon
  op : Op

structure AgentState where
  perfmon : Perfmon
  asked : List Asked

/-- `power["domains"][dname]` -/
structure AgentDomain where
  supportInfo : Bool
  tdp : ℚ
  maxPower : ℚ

/-- What the agent finds when it starts: the power information, the value of `LIKWID_FORCE`, and
what a query reads that leaves the group table -/
structure AgentEnv where
  power : List Char → Option AgentDomain
  force : Int
  stray : Perfmon → Query → ℚ

/-- `threadResults`, for a thread and a key -/
abbrev ThreadResults := ℕ → List Char → Option ℚ

def ThreadResults.set (results : ThreadResults) (thread : ℕ) (key : List Char) (v : ℚ) :
    ThreadResults :=
  fun t k => if t = thread ∧ k = key then some v else results t k

section Program

variable (M : Machine) (B : Backend) (env : AgentEnv)

abbrev AgentProg (α : Type) : Type := Prog Unit AgentState α

/-- Ask for an operation, for the group at a position. -/
def ask (position : ℕ) (op : Op) : AgentProg ℚ := fun a =>
  let asked := a.asked ++ [⟨position, a.perfmon, op⟩]
  match a.perfmon.answer M B op with
  | .ok (r, s') => .done r ⟨s', asked⟩
  | .error k =>
    match op with
    | .query q => .done (env.stray a.perfmon q) ⟨a.perfmon, asked⟩
    | .call _ => .halt k

/-- A call before the loop -/
def callLibrary (call : Call) : AgentProg Int := fun a =>
  match returns (call.prog M B) a.perfmon with
  | some (r, s') => .done r { a with perfmon := s' }
  | none => .halt .undefined

/-- `likwid.getNumberOfThreads()` -/
def agentThreads : AgentProg ℕ := fun a =>
  .done (a.perfmon.groupSet.elim 0 PerfmonGroupSet.numberOfThreads) a

/-- `Counter:match("PWR%d")` -/
def isPowerCounter (counter : List Char) : Bool :=
  (find (literal ['P', 'W', 'R'] ++ [⟨Char.isDigit, .one⟩]) counter).isSome

/-- `Event:match("PWR_(%a+)_ENERGY")` -/
def energyDomain (event : List Char) : Option (List Char) :=
  (find (literal ['P', 'W', 'R', '_'] ++ ⟨Char.isAlpha, .plus⟩ ::
    literal ['_', 'E', 'N', 'E', 'R', 'G', 'Y']) event).bind (·[4]?)

/-- An energy that needs more than the maximal power is replaced. -/
def cappedResult (e : GroupEvent) (counter : List Char) (result time : ℚ) : Option ℚ :=
  if isPowerCounter counter then do
    let dname ← energyDomain (← e.event)
    let domain ← env.power dname
    let exceeds := if time = 0 then 0 < result
      else M.fl (domain.maxPower * M.fl (1 / 1000000)) < M.fl (result / time)
    if domain.supportInfo ∧ result ≠ 0 ∧ exceeds then
      some (M.fl (M.fl (domain.tdp * M.fl (1 / 1000000)) * time))
    else some result
  else some result

/-- An error of Lua ends the agent. -/
def orError {α : Type} (a : Option α) : AgentProg α := a.elim (Prog.ret ()) pure

def agentResult (position : ℕ) (gdata : GroupData) (time : ℚ) (results : ThreadResults)
    (event thread : ℕ) : AgentProg ThreadResults := do
  let results := (results.set thread "time".toList time).set thread "inverseClock".toList
    (M.fl (1 / toDouble M M.cpuClock))
  let result ← ask M B env position (.query (.getResult position event thread))
  let e ← orError (gdata.events.bind (·[event]?))
  let counter ← orError e.counter
  let result ← orError (cappedResult M env e counter result time)
  pure (results.set thread counter result)

/-- The measurement of a group: the table its metrics are computed from -/
def agentGroup (position : ℕ) (gdata : GroupData) : AgentProg ThreadResults := do
  let oldMtime ← ask M B env position (.query (.getTimeOfGroup position))
  let _ ← ask M B env position (.call (.setupCounters position))
  let _ ← ask M B env position (.call .startCounters)
  let _ ← ask M B env position (.call .stopCounters)
  let mtime ← ask M B env position (.query (.getTimeOfGroup position))
  let number ← ask M B env position (.query (.getNumberOfEvents position))
  (List.range number.floor.toNat).foldlM (fun results event => do
    let threads ← agentThreads
    (List.range threads).foldlM (fun results thread =>
      agentResult M B env position gdata (M.fl (mtime - oldMtime)) results event thread) results)
    fun _ _ => none

/-- A round of the loop, from the position on -/
def agentRound : ℕ → List GroupData → AgentProg (List ThreadResults)
  | _, [] => pure []
  | position, gdata :: groups => do
    let results ← agentGroup M B env position gdata
    let rest ← agentRound (position + 1) groups
    pure (results :: rest)

def agentRounds (groups : List GroupData) : ℕ → AgentProg Unit
  | 0 => pure ()
  | rounds + 1 => do
    let _ ← agentRound M B env 0 groups
    agentRounds groups rounds

/-- The additions. The agent drops what they return: the number of the perfmon group, or a
negative code. -/
def agentAdd : List GroupData → AgentProg (List (Option ℕ))
  | [] => pure []
  | gdata :: groups => do
    let eventString ← orError gdata.eventString
    Prog.when (eventString = []) (Prog.ret ())
    let groupId ← callLibrary M B (.addEventSet eventString env.force)
    let rest ← agentAdd groups
    pure ((if 0 ≤ groupId then some groupId.toNat else none) :: rest)

/-- The agent, up to the end of a round -/
def agent (threadsToCpu : List ℕ) (groups : List GroupData) (rounds : ℕ) :
    AgentProg (List (Option ℕ)) := do
  Prog.when (groups = []) (Prog.ret ())
  let ret ← callLibrary M B (.init threadsToCpu)
  Prog.when (ret ≠ 0) (Prog.ret ())
  let added ← agentAdd M B env groups
  agentRounds M B env groups rounds
  pure added

end Program

/-! ## The group an operation is about -/

/-- The group the operation names -/
def Op.groupNamed : Op → Option Int
  | .call (.setupCounters groupId) => some groupId
  | .query (.getResult groupId _ _) => some groupId
  | .query (.getNumberOfEvents groupId) => some groupId
  | .query (.getTimeOfGroup groupId) => some groupId
  | _ => none

/-- The active group, if it is in the state -/
def Control.activeIn (k : Control) (state : GroupState) : Option ℕ :=
  k.active.filter fun a => (k.group? a).map PerfmonEventSet.state = some state

/-- The group whose counters an operation of the loop sets up, starts, stops or reads -/
def Control.worksOn (k : Control) : Op → Option ℕ
  | .call (.setupCounters groupId) => if k.Added groupId then some groupId.toNat else none
  | .call .startCounters => k.activeIn .setup
  | .call .stopCounters => k.activeIn .start
  | .query (.getResult groupId _ _) =>
    k.groupSet.bind fun gs => if gs.numberOfActiveGroups = 0 then none else some
      (if groupId < 0 ∧ 0 ≤ gs.activeGroup then gs.activeGroup else groupId).toNat
  | _ => none

/-- What is asked for an accepted group is about the perfmon group its string was added as, and
its counters are set up. For a rejected group no counters are set up or read. -/
def Asked.Own (a : Asked) : Option ℕ → Prop
  | some g => (∀ i, a.op.groupNamed = some i → i = g) ∧
      (∀ i, a.before.control.worksOn a.op = some i → i = g) ∧
      ∀ i, a.op = .call (.setupCounters i) → a.before.control.worksOn a.op = some g
  | none => a.before.control.worksOn a.op = none

/-- Everything the loop asks is about the group it measures. -/
def OwnGroups (added : List (Option ℕ)) (asked : List Asked) : Prop :=
  ∀ a ∈ asked, ∃ g, added[a.position]? = some g ∧ a.Own g

/-! ## What an operation does to the groups -/

section Effects

variable {M : Machine} {B : Backend} {k k' : Control} {p n : ℕ}

/-- The number of the groups that were added -/
def Control.Has (k : Control) (n : ℕ) : Prop :=
  k.Consistent ∧ ∃ threads, k.frame = some (n, threads)

/-- Group `p` is active and is set up or runs. -/
def Control.Holds (k : Control) (p : ℕ) : Prop :=
  k.active = some p ∧ (k.InState p .setup ∨ k.InState p .start)

theorem Control.Has.added_iff (h : k.Has n) : k.Added p ↔ p < n := by
  obtain ⟨-, threads, hframe⟩ := h
  obtain ⟨gs, hgs, hpair⟩ := Option.map_eq_some_iff.mp hframe
  have hn : gs.numberOfActiveGroups = n := congrArg Prod.fst hpair
  constructor
  · rintro ⟨gs', hgs', -, hlt⟩
    obtain rfl : gs = gs' := Option.some.inj (hgs.symm.trans hgs')
    omega
  · intro hlt
    exact ⟨gs, hgs, Int.natCast_nonneg p, by omega⟩

/-- A set-up of a group that was not added changes nothing. -/
def SetupEffect (p : ℕ) (k k' : Control) : Prop := k.SetUp p k' ∨ ¬k.Added p ∧ k' = k

def StartEffect (M : Machine) (k k' : Control) : Prop := k.Started M k' ∨ k' = k

def StopEffect (M : Machine) (k k' : Control) : Prop := k.StoppedActive M k' ∨ k.StopFailed M k'

theorem SetupEffect.has (h : SetupEffect p k k') (hk : k.Has n) : k'.Has n := by
  rcases h with h | ⟨-, rfl⟩
  · refine ⟨h.consistent hk.1, ?_⟩
    obtain ⟨threads, hframe⟩ := hk.2
    refine ⟨threads, ?_⟩
    rw [h.eq hk.1]
    refine (Control.frame_modifyGroup _ _ _).trans ?_
    rw [← hframe]
    simp only [Control.frame, Control.setActive, Control.modifyGroupSet]
    cases k.groupSet <;> rfl
  · exact hk

theorem StartEffect.frame (h : StartEffect M k k') : k'.frame = k.frame := by
  rcases h with ⟨a, -, -, rfl⟩ | rfl
  · exact (Control.frame_modifyGroup _ _ _).trans (Control.frame_modifyGroup _ _ _)
  · rfl

theorem StopEffect.frame (h : StopEffect M k k') : k'.frame = k.frame := by
  rcases h with ⟨a, -, -, interval, -, -, rfl⟩ | rfl | ⟨a, -, -, rfl⟩
  · exact (Control.frame_modifyGroup _ _ _).trans
      ((Control.frame_modifyGroup _ _ _).trans (Control.frame_modifyGroup _ _ _))
  · rfl
  · exact Control.frame_modifyGroup _ _ _

theorem StartEffect.has (h : StartEffect M k k') (hk : k.Has n) : k'.Has n := by
  obtain ⟨hc, threads, hframe⟩ := hk
  refine ⟨?_, threads, h.frame.trans hframe⟩
  rcases h with h | rfl
  · exact h.consistent hc
  · exact hc

theorem StopEffect.has (h : StopEffect M k k') (hk : k.Has n) : k'.Has n := by
  obtain ⟨hc, threads, hframe⟩ := hk
  refine ⟨?_, threads, h.frame.trans hframe⟩
  rcases h with h | h
  · exact h.consistent hc
  · exact h.consistent hc

theorem inState_setState {state : GroupState} (h : ∃ es, k.group? p = some es) :
    (k.setState p state).InState p state := by
  obtain ⟨es, hes⟩ := h
  refine ⟨{ es with state := state }, ?_, rfl⟩
  rw [Control.setState, Control.group?_modifyGroup, if_pos rfl, hes]
  rfl

theorem SetupEffect.holds (h : SetupEffect p k k') (hk : k.Has n) (hp : p < n) :
    k'.Holds p ∧ k'.InState p .setup := by
  rcases h with h | ⟨hnot, -⟩
  · have hactive : k'.active = some p := by
      rw [h.eq hk.1]
      exact Control.active_modifyGroup.trans (Control.active_setActive h.1)
    have hstate : k'.InState p .setup := by
      rw [h.eq hk.1]
      refine inState_setState ?_
      obtain ⟨gs, hgs, -, hlt⟩ := h.1
      obtain ⟨-, -, hlength, hadded, -⟩ := hk.1 gs hgs
      have hroom : p < gs.groups.length := by omega
      refine ⟨gs.groups[p], ?_⟩
      simp [Control.group?, Control.setActive, Control.modifyGroupSet, hgs, hroom]
    exact ⟨⟨hactive, .inl hstate⟩, hstate⟩
  · exact absurd (hk.added_iff.mpr hp) hnot

theorem Control.InState.exists_group {state : GroupState} (h : k.InState p state) :
    ∃ es, k.group? p = some es := by
  obtain ⟨es, hes, -⟩ := h
  exact ⟨es, hes⟩

theorem Control.Holds.modifyGroup {f : PerfmonEventSet → PerfmonEventSet} {g : ℕ}
    (h : k.Holds p) (hf : ∀ es, (f es).state = es.state) : (k.modifyGroup g f).Holds p := by
  obtain ⟨hactive, hstate⟩ := h
  refine ⟨Control.active_modifyGroup.trans hactive, ?_⟩
  rw [Control.inState_modifyGroup hf, Control.inState_modifyGroup hf]
  exact hstate

theorem Control.Holds.setState {state : GroupState} (h : k.Holds p)
    (hs : state = .setup ∨ state = .start) : (k.setState p state).Holds p := by
  refine ⟨Control.active_modifyGroup.trans h.1, ?_⟩
  have hgroup : ∃ es, k.group? p = some es := by
    rcases h.2 with hstate | hstate
    · exact hstate.exists_group
    · exact hstate.exists_group
  rcases hs with rfl | rfl
  · exact .inl (inState_setState hgroup)
  · exact .inr (inState_setState hgroup)

theorem StartEffect.holds (h : StartEffect M k k') (hk : k.Holds p) : k'.Holds p := by
  rcases h with ⟨a, ha, -, rfl⟩ | rfl
  · obtain rfl : p = a := Option.some.inj (hk.1.symm.trans ha)
    exact (hk.setState (.inr rfl)).modifyGroup fun _ => rfl
  · exact hk

theorem StopEffect.holds (h : StopEffect M k k') (hk : k.Holds p) : k'.Holds p := by
  rcases h with ⟨a, ha, -, interval, -, -, rfl⟩ | rfl | ⟨a, -, -, rfl⟩
  · obtain rfl : p = a := Option.some.inj (hk.1.symm.trans ha)
    have hstopped : (k.stopTimer M p).Holds p := hk.modifyGroup fun _ => rfl
    exact (hstopped.setState (.inl rfl)).modifyGroup fun _ => rfl
  · exact hk
  · exact hk.modifyGroup fun _ => rfl

/-- The active group is the only one a start or a stop can work on. -/
theorem Control.Holds.activeIn {state : GroupState} {i : ℕ} (h : k.Holds p)
    (hi : k.activeIn state = some i) : i = p := by
  obtain ⟨hactive, -⟩ := Option.filter_eq_some_iff.mp hi
  exact Option.some.inj (hactive.symm.trans h.1)

theorem activeIn_of_inState {state : GroupState} (h : k.active = some p)
    (hs : k.InState p state) : k.activeIn state = some p := by
  obtain ⟨es, hes, rfl⟩ := hs
  rw [Control.activeIn, h, Option.filter_some, hes]
  simp

theorem Control.Has.active_none (h : k.Has 0) : k.active = none := by
  obtain ⟨hc, threads, hframe⟩ := h
  obtain ⟨gs, hgs, hpair⟩ := Option.map_eq_some_iff.mp hframe
  have hn : gs.numberOfActiveGroups = 0 := congrArg Prod.fst hpair
  have hneg : gs.activeGroup < 0 := by
    rcases (hc gs hgs).active with h | ⟨h0, hlt⟩
    · omega
    · omega
  rw [Control.active, hgs]
  exact if_neg (Int.not_le.mpr hneg)

end Effects

/-! ## What is asked for a group -/

section Asking

variable {M : Machine} {B : Backend} {env : AgentEnv} {a : AgentState} {p : ℕ}

/-- The records of a measurement: the states the operations are asked in follow one another. -/
inductive GroupAsks (M : Machine) (p : ℕ) (k k' : Control) : List Asked → Prop where
  | mk {s0 s1 s2 s3 s4 s5 : Perfmon} {results : List Asked} (h0 : s0.control = k)
      (h1 : s1.control = k) (hsetup : SetupEffect p k s2.control)
      (hstart : StartEffect M s2.control s3.control) (hstop : StopEffect M s3.control k')
      (h4 : s4.control = k') (h5 : s5.control = k')
      (hresults : ∀ x ∈ results, x.position = p ∧ x.before.control = k' ∧
        ∃ e t, x.op = .query (.getResult p e t)) :
      GroupAsks M p k k' (⟨p, s0, .query (.getTimeOfGroup p)⟩ ::
        ⟨p, s1, .call (.setupCounters p)⟩ :: ⟨p, s2, .call .startCounters⟩ ::
        ⟨p, s3, .call .stopCounters⟩ :: ⟨p, s4, .query (.getTimeOfGroup p)⟩ ::
        ⟨p, s5, .query (.getNumberOfEvents p)⟩ :: results)

/-- A query leaves the control, also where it leaves the group table. -/
theorem wp_ask_query {q : Query} {Q : ℚ → AgentState → Prop} {R : Unit → AgentState → Prop}
    (h : ∀ r a', a'.perfmon.control = a.perfmon.control →
      a'.asked = a.asked ++ [⟨p, a.perfmon, .query q⟩] → Q r a') :
    (ask M B env p (.query q)).wp Q R a := by
  unfold Prog.wp ask
  cases hr : a.perfmon.answer M B (.query q) with
  | error k => exact h _ _ rfl rfl
  | ok answer =>
    obtain ⟨r, s'⟩ := answer
    exact h r _ (opStep_query_control ⟨r, hr⟩) rfl

theorem wp_ask_call {call : Call} {P : Perfmon → Prop} {Q : ℚ → AgentState → Prop}
    {R : Unit → AgentState → Prop}
    (hcall : (call.prog M B).wp (fun _ => P) (fun _ => P) a.perfmon)
    (h : ∀ r a', P a'.perfmon → a'.asked = a.asked ++ [⟨p, a.perfmon, .call call⟩] → Q r a') :
    (ask M B env p (.call call)).wp Q R a := by
  unfold Prog.wp ask
  cases hr : a.perfmon.answer M B (.call call) with
  | error k => trivial
  | ok answer =>
    obtain ⟨r, s'⟩ := answer
    exact h r _ ((opStep_call.mp ⟨r, hr⟩).wp hcall) rfl

theorem setupCounters_effect (p : ℕ) (s : Perfmon) :
    (perfmonSetupCounters M B p).wp (fun _ s' => SetupEffect p s.control s'.control)
      (fun _ s' => SetupEffect p s.control s'.control) s :=
  Prog.wp_mono (perfmonSetupCounters_control p s) (fun _ _ h => .inl h) fun _ _ h => .inr h.2

theorem startCounters_effect (s : Perfmon) :
    (perfmonStartCounters M B).wp (fun _ s' => StartEffect M s.control s'.control)
      (fun _ s' => StartEffect M s.control s'.control) s :=
  Prog.wp_mono (perfmonStartCounters_control s) (fun _ _ h => .inl h) fun _ _ h => .inr h.2

theorem stopCounters_effect (s : Perfmon) :
    (perfmonStopCounters M B).wp (fun _ s' => StopEffect M s.control s'.control)
      (fun _ s' => StopEffect M s.control s'.control) s :=
  Prog.wp_mono (perfmonStopCounters_control s) (fun _ _ h => .inl h) fun _ _ h => .inr h.2

/-- The results of a group are asked for, and nothing else. -/
def ResultsAsked (p : ℕ) (a a' : AgentState) : Prop :=
  a'.perfmon.control = a.perfmon.control ∧ ∃ new, a'.asked = a.asked ++ new ∧
    ∀ x ∈ new, x.position = p ∧ x.before.control = a.perfmon.control ∧
      ∃ e t, x.op = .query (.getResult p e t)

theorem ResultsAsked.refl (a : AgentState) : ResultsAsked p a a :=
  ⟨rfl, [], (List.append_nil _).symm, fun _ hx => absurd hx List.not_mem_nil⟩

theorem ResultsAsked.trans (a b c : AgentState) (h : ResultsAsked p a b)
    (h' : ResultsAsked p b c) : ResultsAsked p a c := by
  obtain ⟨hk, new, hnew, hall⟩ := h
  obtain ⟨hk', new', hnew', hall'⟩ := h'
  refine ⟨hk'.trans hk, new ++ new', ?_, fun x hx => ?_⟩
  · rw [hnew', hnew, List.append_assoc]
  · rcases List.mem_append.mp hx with hx | hx
    · exact hall x hx
    · obtain ⟨hp, hbefore, hop⟩ := hall' x hx
      exact ⟨hp, hbefore.trans hk, hop⟩

abbrev asksResults (p : ℕ) : Prog.Flow AgentState :=
  Prog.Flow.of (ResultsAsked p) ResultsAsked.refl ResultsAsked.trans

theorem orError_respects {α : Type} (o : Option α) :
    Prog.Respects (asksResults p) (orError o) := by
  cases o with
  | none => exact Prog.Respects.ret ResultsAsked.refl
  | some v => exact Prog.Respects.pure v

theorem agentResult_respects (gdata : GroupData) (time : ℚ) (results : ThreadResults)
    (event thread : ℕ) :
    Prog.Respects (asksResults p) (agentResult M B env p gdata time results event thread) := by
  unfold agentResult
  refine Prog.Respects.bind (fun a => ?_) fun result => ?_
  · refine wp_ask_query fun r a' hk hasked => ?_
    refine ⟨hk, [_], hasked, fun x hx => ?_⟩
    rw [List.mem_singleton.mp hx]
    exact ⟨rfl, rfl, _, _, rfl⟩
  · refine Prog.Respects.bind (orError_respects _) fun e => ?_
    refine Prog.Respects.bind (orError_respects _) fun counter => ?_
    exact Prog.Respects.bind (orError_respects _) fun _ => Prog.Respects.pure _

theorem agentThreads_respects : Prog.Respects (asksResults p) agentThreads :=
  fun a => ResultsAsked.refl a

theorem agentGroup_asks (gdata : GroupData) :
    (agentGroup M B env p gdata).wp (fun _ a' => ∃ new, a'.asked = a.asked ++ new ∧
      GroupAsks M p a.perfmon.control a'.perfmon.control new) (fun _ _ => True) a := by
  unfold agentGroup
  rw [Prog.wp_bind]
  refine wp_ask_query fun _ a1 h1 hasked1 => ?_
  rw [Prog.wp_bind]
  refine wp_ask_call (setupCounters_effect p a1.perfmon) fun _ a2 h2 hasked2 => ?_
  rw [Prog.wp_bind]
  refine wp_ask_call (startCounters_effect a2.perfmon) fun _ a3 h3 hasked3 => ?_
  rw [Prog.wp_bind]
  refine wp_ask_call (stopCounters_effect a3.perfmon) fun _ a4 h4 hasked4 => ?_
  rw [Prog.wp_bind]
  refine wp_ask_query fun _ a5 h5 hasked5 => ?_
  rw [Prog.wp_bind]
  refine wp_ask_query fun number a6 h6 hasked6 => ?_
  refine Prog.wp_mono (Prog.Respects.foldlM (F := asksResults p) (fun results event _ => ?_) _ a6)
    (fun _ a7 h7 => ?_) fun _ _ _ => trivial
  · refine Prog.Respects.bind agentThreads_respects fun threads => ?_
    exact Prog.Respects.foldlM (fun results thread _ =>
      agentResult_respects gdata _ results event thread) results
  · obtain ⟨hk, results, hresults, hall⟩ := h7
    have hend : a7.perfmon.control = a4.perfmon.control := hk.trans (h6.trans h5)
    rw [h1] at h2
    rw [← hend] at h4
    have hresults' : ∀ x ∈ results, x.position = p ∧
        x.before.control = a7.perfmon.control ∧ ∃ e t, x.op = .query (.getResult p e t) := by
      intro x hx
      obtain ⟨hp, hbefore, hop⟩ := hall x hx
      exact ⟨hp, hbefore.trans hk.symm, hop⟩
    have hstart : a.perfmon.control = a.perfmon.control := rfl
    refine ⟨_, ?_, .mk hstart h1 h2 h3 h4 hend.symm (h5.trans hend.symm) hresults'⟩
    rw [hresults, hasked6, hasked5, hasked4, hasked3, hasked2, hasked1]
    simp only [List.append_assoc, List.cons_append, List.nil_append]

end Asking

/-! ### What it comes to -/

section Asks

variable {M : Machine} {k k' : Control} {new : List Asked} {n p : ℕ}

theorem GroupAsks.has (h : GroupAsks M p k k' new) (hk : k.Has n) : k'.Has n := by
  cases h with
  | mk h0 h1 hsetup hstart hstop h4 h5 hresults => exact hstop.has (hstart.has (hsetup.has hk))

theorem GroupAsks.holds (h : GroupAsks M p k k' new) (hk : k.Has n) (hp : p < n) :
    k'.Holds p := by
  cases h with
  | mk h0 h1 hsetup hstart hstop h4 h5 hresults =>
    exact hstop.holds (hstart.holds (hsetup.holds hk hp).1)

theorem Control.Has.worksOn_result {e t : Int} (hk : k.Has n) :
    k.worksOn (.query (.getResult p e t)) = if n = 0 then none else some p := by
  obtain ⟨-, threads, hframe⟩ := hk
  obtain ⟨gs, hgs, hpair⟩ := Option.map_eq_some_iff.mp hframe
  obtain rfl : gs.numberOfActiveGroups = n := congrArg Prod.fst hpair
  have hneg : ¬((p : Int) < 0 ∧ 0 ≤ gs.activeGroup) := fun h => by omega
  rw [Control.worksOn, hgs, Option.bind_some, if_neg hneg, Int.toNat_natCast]

/-- At the position of its number everything is asked for the group itself. -/
theorem GroupAsks.own (h : GroupAsks M p k k' new) (hk : k.Has n) (hp : p < n) :
    ∀ x ∈ new, x.position = p ∧ x.Own (some p) := by
  have hnamed : ∀ {op : Op}, op.groupNamed = some (p : Int) →
      ∀ i, op.groupNamed = some i → i = p := by
    intro op hop i hi
    exact Option.some.inj (hi.symm.trans hop)
  cases h with
  | mk h0 h1 hsetup hstart hstop h4 h5 hresults =>
    obtain ⟨hholds, -⟩ := hsetup.holds hk hp
    have hholds' := hstart.holds hholds
    have hlast : _ := hstop.has (hstart.has (hsetup.has hk))
    have hsetupWorks : k.worksOn (.call (.setupCounters p)) = some p :=
      if_pos (hk.added_iff.mpr hp)
    have htime : ∀ s : Perfmon, Asked.Own ⟨p, s, .query (.getTimeOfGroup p)⟩ (some p) :=
      fun s => ⟨hnamed rfl, fun i hi => (by cases hi), fun i hi => (by cases hi)⟩
    intro x hx
    simp only [List.mem_cons] at hx
    rcases hx with rfl | rfl | rfl | rfl | rfl | rfl | hx
    · exact ⟨rfl, htime _⟩
    · refine ⟨rfl, hnamed rfl, fun i hi => ?_, fun i hi => ?_⟩
      · rw [h1, hsetupWorks] at hi
        exact (Option.some.inj hi).symm
      · obtain rfl : (p : Int) = i := by
          cases hi
          rfl
        rw [h1, hsetupWorks]
    · exact ⟨rfl, fun i hi => (by cases hi), fun i hi => hholds.activeIn hi,
        fun i hi => (by cases hi)⟩
    · exact ⟨rfl, fun i hi => (by cases hi), fun i hi => hholds'.activeIn hi,
        fun i hi => (by cases hi)⟩
    · exact ⟨rfl, htime _⟩
    · exact ⟨rfl, hnamed rfl, fun i hi => (by cases hi), fun i hi => (by cases hi)⟩
    · obtain ⟨hx, hbefore, e, t, hop⟩ := hresults x hx
      refine ⟨hx, ?_, fun i hi => ?_, fun i hi => ?_⟩
      · rw [hop]
        exact hnamed rfl
      · rw [hop, hbefore, hlast.worksOn_result, if_neg (by omega)] at hi
        exact (Option.some.inj hi).symm
      · rw [hop] at hi
        cases hi

/-- Without groups nothing is set up or read. -/
theorem GroupAsks.own_none (h : GroupAsks M p k k' new) (hk : k.Has 0) :
    ∀ x ∈ new, x.position = p ∧ x.Own none := by
  have hidle : ∀ {k : Control} {state : GroupState}, k.Has 0 → k.activeIn state = none := by
    intro k state hk
    rw [Control.activeIn, hk.active_none]
    rfl
  have hsetupWorks : k.worksOn (.call (.setupCounters p)) = none :=
    if_neg fun hadd => absurd (hk.added_iff.mp hadd) (Nat.not_lt_zero p)
  cases h with
  | mk h0 h1 hsetup hstart hstop h4 h5 hresults =>
    have h2 := hsetup.has hk
    have h3 := hstart.has h2
    intro x hx
    simp only [List.mem_cons] at hx
    rcases hx with rfl | rfl | rfl | rfl | rfl | rfl | hx
    · exact ⟨rfl, rfl⟩
    · refine ⟨rfl, ?_⟩
      rw [← h1] at hsetupWorks
      exact hsetupWorks
    · exact ⟨rfl, hidle h2⟩
    · exact ⟨rfl, hidle h3⟩
    · exact ⟨rfl, rfl⟩
    · exact ⟨rfl, rfl⟩
    · obtain ⟨hx, hbefore, e, t, hop⟩ := hresults x hx
      refine ⟨hx, ?_⟩
      rw [Asked.Own, hop, hbefore, (hstop.has h3).worksOn_result, if_pos rfl]

theorem GroupAsks.names (h : GroupAsks M p k k' new) :
    ∃ x ∈ new, x.position = p ∧ x.op.groupNamed = some (p : Int) := by
  cases h with
  | mk h0 h1 hsetup hstart hstop h4 h5 hresults => exact ⟨_, List.mem_cons_self, rfl, rfl⟩

/-- At a position without a group the group that was measured last is started or stopped. -/
theorem GroupAsks.works {q : ℕ} (h : GroupAsks M p k k' new) (hk : k.Has n) (hp : n ≤ p)
    (hq : k.Holds q) :
    ∃ x ∈ new, x.position = p ∧ x.before.control.worksOn x.op = some q := by
  cases h with
  | mk h0 h1 hsetup hstart hstop h4 h5 hresults =>
    rename_i s0 s1 s2 s3 s4 s5 results
    have hnot : ¬k.Added p := fun hadd => absurd (hk.added_iff.mp hadd) (Nat.not_lt.mpr hp)
    have h2 : s2.control = k := by
      rcases hsetup with hsetup | ⟨-, h2⟩
      · exact absurd hsetup.1 hnot
      · exact h2
    rcases hq.2 with hstate | hstate
    · refine ⟨⟨p, s2, .call .startCounters⟩, by simp, rfl, ?_⟩
      show s2.control.activeIn .setup = some q
      rw [h2]
      exact activeIn_of_inState hq.1 hstate
    · -- it runs: the start fails, and the stop finds it
      have h3 : s3.control = k := by
        rcases hstart with ⟨a, ha, hsetup', -⟩ | h3
        · rw [h2] at ha hsetup'
          obtain rfl : q = a := Option.some.inj (hq.1.symm.trans ha)
          cases hstate.unique hsetup'
        · exact h3.trans h2
      refine ⟨⟨p, s3, .call .stopCounters⟩, by simp, rfl, ?_⟩
      show s3.control.activeIn .start = some q
      rw [h3]
      exact activeIn_of_inState hq.1 hstate

end Asks

/-! ## Rounds -/

section Rounds

variable {M : Machine} {B : Backend} {env : AgentEnv} {groups : List GroupData}

/-- The records of a round: one list for each group, from the position on -/
def RoundAsks (M : Machine) (I : ℕ → Control → Prop) (p n : ℕ) (asked : List Asked) : Prop :=
  ∃ news : List (List Asked), asked = news.flatten ∧ news.length = n ∧
    ∀ i new, news[i]? = some new → ∃ k k', I (p + i) k ∧ GroupAsks M (p + i) k k' new

/-- A round, with what holds of the groups before every position -/
theorem agentRound_asks {I : ℕ → Control → Prop}
    (hstep : ∀ p k k' new, I p k → GroupAsks M p k k' new → I (p + 1) k') (p : ℕ)
    (a : AgentState) (ha : I p a.perfmon.control) :
    (agentRound M B env p groups).wp (fun _ a' => I (p + groups.length) a'.perfmon.control ∧
      ∃ new, a'.asked = a.asked ++ new ∧ RoundAsks M I p groups.length new)
      (fun _ _ => True) a := by
  induction groups generalizing p a with
  | nil =>
    refine ⟨ha, [], (List.append_nil _).symm, [], rfl, rfl, fun i new h => ?_⟩
    rw [List.getElem?_nil] at h
    cases h
  | cons gdata groups ih =>
    rw [agentRound, Prog.wp_bind]
    refine Prog.wp_mono (agentGroup_asks gdata) (fun _ a1 h1 => ?_) fun _ _ _ => trivial
    obtain ⟨new, hnew, hasks⟩ := h1
    rw [Prog.wp_bind]
    refine Prog.wp_mono (ih (p + 1) a1 (hstep p _ _ new ha hasks)) (fun _ a2 h2 => ?_)
      fun _ _ _ => trivial
    obtain ⟨hend, rest, hrest, news, hnews, hlength, hall⟩ := h2
    have hsum : p + 1 + groups.length = p + (groups.length + 1) := by omega
    refine ⟨hsum ▸ hend, new ++ rest, ?_, new :: news, ?_, ?_, fun i new' hi => ?_⟩
    · rw [hrest, hnew, List.append_assoc]
    · rw [hnews, List.flatten_cons]
    · rw [List.length_cons, hlength, List.length_cons]
    · cases i with
      | zero =>
        obtain rfl : new = new' := Option.some.inj hi
        exact ⟨_, _, ha, hasks⟩
      | succ i =>
        have hsucc : p + (i + 1) = p + 1 + i := by omega
        rw [hsucc]
        exact hall i new' hi

/-- Any number of rounds: everything is asked in one of them. -/
theorem agentRounds_asks {I : Control → Prop}
    (hstep : ∀ p k k' new, I k → GroupAsks M p k k' new → I k') (rounds : ℕ) (a : AgentState)
    (ha : I a.perfmon.control) :
    (agentRounds M B env groups rounds).wp (fun _ a' => ∃ new, a'.asked = a.asked ++ new ∧
      ∀ x ∈ new, ∃ p < groups.length, ∃ k k' asks, I k ∧ GroupAsks M p k k' asks ∧ x ∈ asks)
      (fun _ _ => True) a := by
  induction rounds generalizing a with
  | zero => exact ⟨[], (List.append_nil _).symm, fun x hx => absurd hx List.not_mem_nil⟩
  | succ rounds ih =>
    rw [agentRounds, Prog.wp_bind]
    refine Prog.wp_mono (agentRound_asks (I := fun _ => I) hstep 0 a ha) (fun _ a1 h1 => ?_)
      fun _ _ _ => trivial
    obtain ⟨hend, new, hnew, news, rfl, hlength, hall⟩ := h1
    refine Prog.wp_mono (ih a1 hend) (fun _ a2 h2 => ?_) fun _ _ _ => trivial
    obtain ⟨rest, hrest, hrests⟩ := h2
    refine ⟨news.flatten ++ rest, by rw [hrest, hnew, List.append_assoc], fun x hx => ?_⟩
    rcases List.mem_append.mp hx with hx | hx
    · obtain ⟨asks, hasks, hx⟩ := List.mem_flatten.mp hx
      obtain ⟨i, hi⟩ := List.mem_iff_getElem?.mp hasks
      obtain ⟨hlt, -⟩ := List.getElem?_eq_some_iff.mp hi
      obtain ⟨k, k', hk, hgroup⟩ := hall i asks hi
      rw [Nat.zero_add] at hgroup
      exact ⟨i, hlength ▸ hlt, k, k', asks, hk, hgroup, hx⟩
    · exact hrests x hx

theorem agentRounds_first {I : ℕ → Control → Prop}
    (hstep : ∀ p k k' new, I p k → GroupAsks M p k k' new → I (p + 1) k') (rounds : ℕ)
    (a : AgentState) (ha : I 0 a.perfmon.control) :
    (agentRounds M B env groups (rounds + 1)).wp (fun _ a' => ∃ new rest,
      a'.asked = a.asked ++ (new ++ rest) ∧ RoundAsks M I 0 groups.length new)
      (fun _ _ => True) a := by
  rw [agentRounds, Prog.wp_bind]
  refine Prog.wp_mono (agentRound_asks hstep 0 a ha) (fun _ a1 h1 => ?_) fun _ _ _ => trivial
  obtain ⟨-, new, hnew, hasks⟩ := h1
  refine Prog.wp_mono (agentRounds_asks (I := fun _ => True) (fun _ _ _ _ _ _ => trivial) rounds
    a1 trivial) (fun _ a2 h2 => ?_) fun _ _ _ => trivial
  obtain ⟨rest, hrest, -⟩ := h2
  exact ⟨new, rest, by rw [hrest, hnew, List.append_assoc], hasks⟩

end Rounds

/-! ## Additions -/

section Additions

variable {M : Machine} {B : Backend} {env : AgentEnv}

/-- The accepted groups are numbered from `k` on. -/
def Numbered : ℕ → List (Option ℕ) → Prop
  | _, [] => True
  | k, none :: added => Numbered k added
  | k, some g :: added => g = k ∧ Numbered (k + 1) added

/-- An accepted group has as number the count of the accepted ones before it. -/
theorem Numbered.eq {k i g : ℕ} {added : List (Option ℕ)} (h : Numbered k added)
    (hi : added[i]? = some (some g)) : g = k + (added.take i).countP Option.isSome := by
  induction added generalizing k i with
  | nil =>
    rw [List.getElem?_nil] at hi
    cases hi
  | cons o added ih =>
    cases i with
    | zero =>
      obtain rfl : o = some g := Option.some.inj hi
      exact h.1
    | succ i =>
      cases o with
      | none => exact ih (k := k) h hi
      | some g' =>
        rw [ih h.2 hi, List.take_succ_cons, List.countP_cons_of_pos rfl]
        omega

/-- The state before and between the additions -/
def AddState (n : ℕ) (s : Perfmon) : Prop :=
  s.control.Consistent ∧ ∃ gs, s.groupSet = some gs ∧ gs.Tight ∧ gs.numberOfActiveGroups = n

theorem AddState.has {n : ℕ} {s : Perfmon} (h : AddState n s) : s.control.Has n := by
  obtain ⟨hc, gs, hgs, -, rfl⟩ := h
  refine ⟨hc, gs.threads, ?_⟩
  rw [Control.frame, control_groupSet hgs]
  rfl

theorem addEventSet_state {n : ℕ} {s s' : Perfmon} {r : Int} {eventString : List Char}
    (h : AddState n s)
    (hr : returns (perfmonAddEventSet M eventString env.force) s = some (r, s')) :
    (r = n ∧ AddState (n + 1) s') ∨ (r < 0 ∧ AddState n s') := by
  obtain ⟨hc, gs, hgs, htight, rfl⟩ := h
  have hadd : AddStep M s ⟨some eventString, none, env.force, r⟩ s' := by
    unfold AddStep perfmonAddEventSetArg returns
    rw [Prog.bind_of_done (requireInit_some hgs)]
    exact hr
  obtain ⟨hc', gs', hgs', htight', hcode, -⟩ := addStep_table hgs hc htight hadd
  rcases hcode with ⟨hcode, hn⟩ | ⟨hcode, hn⟩
  · exact .inl ⟨hcode, hc', gs', hgs', htight', hn⟩
  · exact .inr ⟨hcode, hc', gs', hgs', htight', hn⟩

theorem wp_callLibrary {call : Call} {a : AgentState} {Q : Int → AgentState → Prop}
    {R : Unit → AgentState → Prop}
    (h : ∀ r s', returns (call.prog M B) a.perfmon = some (r, s') →
      Q r { a with perfmon := s' }) : (callLibrary M B call).wp Q R a := by
  unfold Prog.wp callLibrary
  cases hr : returns (call.prog M B) a.perfmon with
  | none => trivial
  | some answer =>
    obtain ⟨r, s'⟩ := answer
    exact h r s' hr

/-- The additions number the accepted groups. -/
theorem agentAdd_state {groups : List GroupData} {n : ℕ} (a : AgentState)
    (h : AddState n a.perfmon) :
    (agentAdd M B env groups).wp (fun added a' => a'.asked = a.asked ∧
      added.length = groups.length ∧ Numbered n added ∧
      AddState (n + added.countP Option.isSome) a'.perfmon) (fun _ _ => True) a := by
  induction groups generalizing n a with
  | nil => exact ⟨rfl, rfl, trivial, h⟩
  | cons gdata groups ih =>
    rw [agentAdd, Prog.wp_bind]
    cases gdata.eventString with
    | none => trivial
    | some eventString =>
      show (Prog.when (eventString = []) _ >>= _).wp _ _ a
      rw [Prog.wp_bind, Prog.wp_when]
      refine ⟨fun _ => trivial, fun _ => ?_⟩
      rw [Prog.wp_bind]
      refine wp_callLibrary fun r s' hr => ?_
      rw [Prog.wp_bind]
      rcases addEventSet_state h hr with ⟨rfl, hs'⟩ | ⟨hneg, hs'⟩
      · refine Prog.wp_mono (ih _ hs') (fun rest a' h' => ?_) fun _ _ _ => trivial
        obtain ⟨hasked, hlength, hnumbered, hend⟩ := h'
        rw [if_pos (Int.natCast_nonneg n), Int.toNat_natCast]
        refine ⟨hasked, congrArg (· + 1) hlength, ⟨rfl, hnumbered⟩, ?_⟩
        rw [List.countP_cons_of_pos rfl]
        have hsum : n + (rest.countP Option.isSome + 1) = n + 1 + rest.countP Option.isSome := by
          omega
        rwa [hsum]
      · refine Prog.wp_mono (ih _ hs') (fun rest a' h' => ?_) fun _ _ _ => trivial
        obtain ⟨hasked, hlength, hnumbered, hend⟩ := h'
        rw [if_neg (Int.not_le.mpr hneg)]
        refine ⟨hasked, congrArg (· + 1) hlength, hnumbered, ?_⟩
        rwa [List.countP_cons_of_neg (by decide)]

theorem AddState.of_initialised {k : Control} {s : Perfmon} (h : k.Initialised s.control) :
    AddState 0 s := by
  refine ⟨h.consistent, ?_⟩
  obtain ⟨-, gs, hk, hn, hactive, -⟩ := h
  have hgroups : s.groupSet.map PerfmonGroupSet.control = some gs := congrArg Control.groupSet hk
  obtain ⟨gs', hgs', rfl⟩ := Option.map_eq_some_iff.mp hgroups
  have hn' : gs'.numberOfGroups = 0 := hn
  have hactive' : gs'.numberOfActiveGroups = 0 := hactive
  exact ⟨gs', hgs', ⟨by omega, by omega⟩, hactive'⟩

theorem init_state {threadsToCpu : List ℕ} {s s' : Perfmon} {r : Int} (hs : s.groupSet = none)
    (hr : returns (perfmonInit M B threadsToCpu) s = some (r, s')) (h0 : r = 0) :
    AddState 0 s' := by
  have hfails : (perfmonInit M B threadsToCpu).wp (fun _ _ => True) (fun r _ => r ≠ 0) s := by
    unfold perfmonInit
    rw [Prog.wp_bind, Prog.wp_get, hs]
    simp only [Prog.wp_bind, Prog.wp_when, Prog.wp_ret, Prog.wp_modify]
    refine ⟨fun _ => by decide, fun _ => ⟨fun _ => by decide, fun _ => ⟨fun _ => by decide,
      fun _ => ?_⟩⟩⟩
    refine Prog.wp_foldlM (I := fun _ _ => True) (fun _ cpu _ s1 _ _ => ?_) trivial
    unfold hpmAddThread
    simp only [Prog.wp_bind, Prog.wp_zoom, Prog.wp_call, Prog.wp_modify]
    exact Prog.wp_mono (Prog.wp_trivial _) (fun _ _ _ => trivial) fun _ _ _ => trivial
  have hwp := Prog.wp_and (perfmonInit_control (M := M) (B := B) threadsToCpu s) hfails
  refine of_returns (P := fun r s' => r = 0 → AddState 0 s') ?_ hr h0
  refine Prog.wp_mono hwp (fun _ s1 h _ => .of_initialised h.1) fun r s1 h hzero => ?_
  exact absurd hzero h.2

end Additions

/-! ## The agent -/

section Main

variable {M : Machine} {B : Backend} {env : AgentEnv}

/-- What a run of the agent is made of -/
theorem agent_run {threadsToCpu : List ℕ} {groups : List GroupData} {rounds : ℕ}
    {s : Perfmon} {added : List (Option ℕ)} {a : AgentState} (hs : s.groupSet = none)
    (hrun : agent M B env threadsToCpu groups rounds ⟨s, []⟩ = .done added a) :
    ∃ a0 : AgentState, a0.asked = [] ∧ a0.perfmon.control.Has (added.countP Option.isSome) ∧
      added.length = groups.length ∧ Numbered 0 added ∧
      agentRounds M B env groups rounds a0 = .done () a := by
  have hwp : (agent M B env threadsToCpu groups rounds).wp (fun added a => ∃ a0 : AgentState,
      a0.asked = [] ∧ a0.perfmon.control.Has (added.countP Option.isSome) ∧
      added.length = groups.length ∧ Numbered 0 added ∧
      agentRounds M B env groups rounds a0 = .done () a) (fun _ _ => True) ⟨s, []⟩ := by
    unfold agent
    rw [Prog.wp_bind, Prog.wp_when]
    refine ⟨fun _ => trivial, fun _ => ?_⟩
    rw [Prog.wp_bind]
    refine wp_callLibrary fun r s' hr => ?_
    rw [Prog.wp_bind, Prog.wp_when]
    refine ⟨fun _ => trivial, fun h0 => ?_⟩
    rw [Prog.wp_bind]
    refine Prog.wp_mono (agentAdd_state _ (init_state hs hr (not_not.mp h0))) (fun added a0 h => ?_)
      fun _ _ _ => trivial
    obtain ⟨hasked, hlength, hnumbered, hstate⟩ := h
    rw [Nat.zero_add] at hstate
    rw [Prog.wp_bind]
    refine Prog.wp_mono (Prog.wp_outcome _) (fun u a1 hdone => ?_) fun _ _ _ => trivial
    exact ⟨a0, hasked, hstate.has, hlength, hnumbered, hdone⟩
  exact Prog.wp_done hwp hrun

/-- With accepted and rejected groups something is asked about another group: behind a rejected
group the numbers are behind the positions, and at a rejected group that comes last the group
before it is started or stopped. -/
theorem mixed_not_own {groups : List GroupData} {rounds : ℕ} {added : List (Option ℕ)}
    {a0 a : AgentState} (hhas : a0.perfmon.control.Has (added.countP Option.isSome))
    (hlength : added.length = groups.length) (hnumbered : Numbered 0 added)
    (hrounds : 0 < rounds) (hloop : agentRounds M B env groups rounds a0 = .done () a)
    (hall : ¬∀ o ∈ added, o.isSome = true) (hnone : ¬∀ o ∈ added, o = none) :
    ¬OwnGroups added a.asked := by
  intro hown
  obtain ⟨rounds, rfl⟩ := Nat.exists_eq_succ_of_ne_zero (Nat.ne_of_gt hrounds)
  obtain ⟨n, hn⟩ : ∃ n, added.countP Option.isSome = n := ⟨_, rfl⟩
  rw [hn] at hhas
  let I (p : ℕ) (k : Control) : Prop := k.Has n ∧ ∀ q, p = q + 1 → p ≤ n → k.Holds q
  have hstart : I 0 a0.perfmon.control := ⟨hhas, fun q hq => absurd hq.symm (Nat.succ_ne_zero q)⟩
  have hstep : ∀ p k k' new, I p k → GroupAsks M p k k' new → I (p + 1) k' := by
    rintro p k k' new ⟨hk, -⟩ h
    refine ⟨h.has hk, fun q hq hle => ?_⟩
    obtain rfl : p = q := Nat.succ.inj hq
    exact h.holds hk hle
  obtain ⟨new, rest, hnew, news, rfl, hnews, hrows⟩ :=
    Prog.wp_done (agentRounds_first hstep rounds a0 hstart) hloop
  have hrow : ∀ {i : ℕ} {o : Option ℕ}, added[i]? = some o →
      ∃ k k' asks, I i k ∧ GroupAsks M i k k' asks ∧ ∀ x ∈ asks, x.position = i → x.Own o := by
    intro i o hi
    obtain ⟨hlt, -⟩ := List.getElem?_eq_some_iff.mp hi
    have hlt' : i < news.length := by rwa [hnews, ← hlength]
    obtain ⟨k, k', hk, h⟩ := hrows i _ (List.getElem?_eq_getElem hlt')
    rw [Nat.zero_add] at hk h
    refine ⟨k, k', _, hk, h, fun x hx hposition => ?_⟩
    obtain ⟨g, hg, hownx⟩ := hown x (by
      rw [hnew]
      exact List.mem_append_right _ (List.mem_append_left _
        (List.mem_flatten.mpr ⟨_, List.getElem_mem hlt', hx⟩)))
    rw [hposition, hi] at hg
    rwa [Option.some.inj hg]
  -- the number of an accepted group is its position
  have hsame : ∀ {i g : ℕ}, added[i]? = some (some g) → g = i := by
    intro i g hi
    obtain ⟨k, k', asks, -, h, hrowOwn⟩ := hrow hi
    obtain ⟨x, hx, hposition, hnamed⟩ := h.names
    exact_mod_cast ((hrowOwn x hx hposition).1 _ hnamed).symm
  have hpos : 0 < n := by
    rw [← hn, List.countP_pos_iff]
    push Not at hnone
    obtain ⟨o, ho, hne⟩ := hnone
    exact ⟨o, ho, Option.isSome_iff_ne_none.mpr hne⟩
  have hlt : n < added.length := by
    rcases Nat.lt_or_eq_of_le (hn ▸ List.countP_le_length) with h | h
    · exact h
    · exact absurd (List.countP_eq_length.mp (hn.trans h)) hall
  -- so the accepted ones come first, and the next one is rejected
  have hnext : added[n]? = some none := by
    rw [List.getElem?_eq_getElem hlt]
    cases ho : added[n] with
    | none => rfl
    | some g =>
      have hi : added[n]? = some (some g) := by rw [List.getElem?_eq_getElem hlt, ho]
      have htake := hnumbered.eq hi
      rw [hsame hi, Nat.zero_add] at htake
      have hcount : added.countP Option.isSome =
          (added.take n).countP Option.isSome + (added.drop n).countP Option.isSome := by
        rw [← List.countP_append, List.take_append_drop]
      rw [← htake, hn, List.drop_eq_getElem_cons hlt, ho, List.countP_cons_of_pos rfl] at hcount
      omega
  obtain ⟨k, k', asks, ⟨hk, hholds⟩, h, hrowOwn⟩ := hrow hnext
  obtain ⟨q, rfl⟩ := Nat.exists_eq_succ_of_ne_zero (Nat.ne_of_gt hpos)
  obtain ⟨x, hx, hposition, hworks⟩ := h.works hk le_rfl (hholds q rfl le_rfl)
  have hidle : x.before.control.worksOn x.op = none := hrowOwn x hx hposition
  rw [hworks] at hidle
  cases hidle

/-- In rounds that run to their end everything is asked about the group it is for, if and only if
all groups were accepted, or none. -/
theorem ownGroups_iff {threadsToCpu : List ℕ} {groups : List GroupData} {rounds : ℕ}
    {s : Perfmon} {added : List (Option ℕ)} {a : AgentState} (hs : s.groupSet = none)
    (hrounds : 0 < rounds)
    (hrun : agent M B env threadsToCpu groups rounds ⟨s, []⟩ = .done added a) :
    OwnGroups added a.asked ↔ (∀ o ∈ added, o.isSome = true) ∨ ∀ o ∈ added, o = none := by
  obtain ⟨a0, hasked, hhas, hlength, hnumbered, hloop⟩ := agent_run hs hrun
  constructor
  · intro hown
    by_contra hmixed
    rw [not_or] at hmixed
    exact mixed_not_own hhas hlength hnumbered hrounds hloop hmixed.1 hmixed.2 hown
  · rintro (hall | hnone)
    · have hcount : added.countP Option.isSome = groups.length := by
        rw [List.countP_eq_length.mpr hall, hlength]
      rw [hcount] at hhas
      obtain ⟨new, hnew, hasks⟩ := Prog.wp_done
        (agentRounds_asks (fun p k k' new hk h => GroupAsks.has h hk) rounds a0 hhas) hloop
      intro x hx
      rw [hnew, hasked, List.nil_append] at hx
      obtain ⟨p, hp, k, k', asks, hk, hgroup, hx⟩ := hasks x hx
      obtain ⟨hposition, hown⟩ := hgroup.own hk hp x hx
      refine ⟨some p, ?_, hown⟩
      rw [hposition]
      have hlt : p < added.length := hlength ▸ hp
      obtain ⟨g, hg⟩ := Option.isSome_iff_exists.mp (hall _ (List.getElem_mem hlt))
      have hat : added[p]? = some (some g) := by rw [List.getElem?_eq_getElem hlt, hg]
      have htake : (added.take p).countP Option.isSome = p := by
        rw [List.countP_eq_length.mpr fun o ho => hall o (List.mem_of_mem_take ho),
          List.length_take, Nat.min_eq_left hlt.le]
      rw [hat, hnumbered.eq hat, htake, Nat.zero_add]
    · have hcount : added.countP Option.isSome = 0 :=
        List.countP_eq_zero.mpr fun o ho h => by
          rw [hnone o ho] at h
          cases h
      rw [hcount] at hhas
      obtain ⟨new, hnew, hasks⟩ := Prog.wp_done
        (agentRounds_asks (fun p k k' new hk h => GroupAsks.has h hk) rounds a0 hhas) hloop
      intro x hx
      rw [hnew, hasked, List.nil_append] at hx
      obtain ⟨p, hp, k, k', asks, hk, hgroup, hx⟩ := hasks x hx
      obtain ⟨hposition, hown⟩ := hgroup.own_none hk x hx
      refine ⟨none, ?_, hown⟩
      have hlt : p < added.length := hlength ▸ hp
      rw [hposition, List.getElem?_eq_getElem hlt, hnone _ (List.getElem_mem hlt)]

/-- No power information, and a query that leaves the group table reads zero. -/
def plainEnv : AgentEnv where
  power := fun _ => none
  force := 0
  stray := fun _ _ => 0

def fixedGroup : GroupData where
  eventString := some "INSTR_RETIRED_ANY:FIXC0".toList
  events := some [{ event := some "INSTR_RETIRED_ANY".toList, counter := some "FIXC0".toList }]

/-- A round of the agent on one CPU -/
def agentRun (groups : List GroupData) : Option (List (Option ℕ) × AgentState) :=
  (agent haswellMachine (haswell haswellMachine) plainEnv [0] groups 1).result?
    ⟨Perfmon.boot, []⟩

def coreGroup : GroupData where
  eventString := some "UOPS_ISSUED_ANY:PMC0".toList
  events := some [{ event := some "UOPS_ISSUED_ANY".toList, counter := some "PMC0".toList }]

theorem ownGroups_twoGroups :
    ∃ added a, agentRun [fixedGroup, coreGroup] = some (added, a) ∧ OwnGroups added a.asked := by
  have hadded : (agentRun [fixedGroup, coreGroup]).map Prod.fst = some [some 0, some 1] := by
    decide +kernel
  obtain ⟨⟨added, a⟩, hr, rfl⟩ := Option.map_eq_some_iff.mp hadded
  have hrun : agent haswellMachine (haswell haswellMachine) plainEnv [0] [fixedGroup, coreGroup] 1
      ⟨Perfmon.boot, []⟩ = .done [some 0, some 1] a := Prog.result?_eq_some.mp hr
  refine ⟨[some 0, some 1], a, hr, (ownGroups_iff rfl Nat.one_pos hrun).mpr (.inl ?_)⟩
  decide

def rejectedGroup : GroupData where
  eventString := some "A-B:PMC0".toList
  events := some [{ event := some "A-B".toList, counter := some "PMC0".toList }]

/-- The first group is rejected: at its position the counters of the second one are set up. -/
theorem not_ownGroups_rejected :
    ∃ added a, agentRun [rejectedGroup, fixedGroup] = some (added, a) ∧
      ¬OwnGroups added a.asked := by
  have hend : (agentRun [rejectedGroup, fixedGroup]).map (fun r => (r.1,
      (r.2.asked[1]?).map fun x => (x.position, x.before.control.worksOn x.op))) =
        some ([none, some 0], some (0, some 0)) := by decide +kernel
  obtain ⟨⟨added, a⟩, hr, hpair⟩ := Option.map_eq_some_iff.mp hend
  obtain ⟨rfl, hsetup⟩ := Prod.mk.inj hpair
  refine ⟨[none, some 0], a, hr, fun hown => ?_⟩
  obtain ⟨x, hx, hpair⟩ := Option.map_eq_some_iff.mp hsetup
  obtain ⟨hposition, hworks⟩ := Prod.mk.inj hpair
  obtain ⟨g, hg, hx⟩ := hown x (List.mem_of_getElem? hx)
  rw [hposition] at hg
  obtain rfl : none = g := Option.some.inj hg
  have hidle : x.before.control.worksOn x.op = none := hx
  rw [hworks] at hidle
  cases hidle

end Main

end Likwid
