import Likwid.Lib.Run
import Likwid.Perfmon

/-!
# Calls and runs

The exported functions as one alphabet of calls, what a call does to the
module's state, and the states a program starts from. A run is any sequence of
calls that return; a call whose meaning is undefined, or that ends the process,
ends the run.
-/

namespace Likwid

/-- A call of an exported function, with its arguments. -/
inductive Call where
  | init (threadsToCpu : List ℕ)
  | finalize
  | addEventSet (eventString : List Char) (force : Int)
  | setupCounters (groupId : Int)
  | startCounters
  | startGroupCounters (groupId : Int)
  | readCounters
  | readGroupCounters (groupId : Int)
  | readGroupThreadCounters (groupId threadId : Int)
  | readCountersCpu (cpu : Int)
  | stopCounters
  | stopGroupCounters (groupId : Int)
  | switchActiveGroup (newGroup : Int)
deriving DecidableEq, Repr

variable (M : Machine) (B : Backend)

def Call.prog : Call → PerfmonProg Unit
  | .init threadsToCpu => perfmonInit M B threadsToCpu
  | .finalize => perfmonFinalize B
  | .addEventSet eventString force => perfmonAddEventSet M eventString force
  | .setupCounters groupId => perfmonSetupCounters M B groupId
  | .startCounters => perfmonStartCounters M B
  | .startGroupCounters groupId => perfmonStartGroupCounters M B groupId
  | .readCounters => perfmonReadCounters B
  | .readGroupCounters groupId => perfmonReadGroupCounters B groupId
  | .readGroupThreadCounters groupId threadId =>
      perfmonReadGroupThreadCounters B groupId threadId
  | .readCountersCpu cpu => perfmonReadCountersCpu B cpu
  | .stopCounters => perfmonStopCounters M B
  | .stopGroupCounters groupId => perfmonStopGroupCounters M B groupId
  | .switchActiveGroup newGroup => perfmonSwitchActiveGroup M B newGroup

/-- The value a routine returns and the state it leaves, if it returns. -/
def returns (m : PerfmonProg Unit) (s : Perfmon) : Option (Int × Perfmon) :=
  match m s with
  | .done _ s' => some (0, s')
  | .ret r s' => some (r, s')
  | .halt _ => none

/-- The call `call` in `s` returns and leaves `s'`. -/
def Step (s : Perfmon) (call : Call) (s' : Perfmon) : Prop :=
  ∃ r, returns (call.prog M B) s = some (r, s')

/-- Nothing is initialised, nothing is cached and nothing was measured. The
registers hold anything. -/
structure Booted (s : Perfmon) : Prop where
  groupSet : s.groupSet = none
  intervals : s.intervals = []
  currentConfig : ∀ cpu index, s.core.currentConfig cpu index = 0

/-- A state with all registers zero. -/
def Perfmon.boot : Perfmon where
  core :=
    { regs := fun _ _ _ => 0
      currentConfig := fun _ _ => 0
      registeredCpuList := fun _ => false
      socketLock := fun _ => -1
      tileLock := fun _ => -1
      haswellCboxSetup := none
      trace := [] }
  groupSet := none
  stamps := 0
  intervals := []

theorem booted_boot : Booted Perfmon.boot := ⟨rfl, rfl, fun _ _ => rfl⟩

/-- The state after a call, if it returns. -/
def Perfmon.next (s : Perfmon) (call : Call) : Option Perfmon :=
  (returns (call.prog M B) s).map Prod.snd

/-- The state after a sequence of calls, if each meets the guard and returns. -/
abbrev Perfmon.afterIf (guard : Perfmon → Call → Prop) [∀ s call, Decidable (guard s call)]
    (calls : List Call) (s : Perfmon) : Option Perfmon :=
  Run.exec (Perfmon.next M B) guard calls s

/-- The state after a sequence of calls that all return. -/
abbrev Perfmon.after (calls : List Call) (s : Perfmon) : Option Perfmon :=
  Perfmon.afterIf M B (fun _ _ => True) calls s

section Returns

variable {M B} {m : PerfmonProg Unit} {s s' : Perfmon} {r : Int}

theorem of_returns {P : Int → Perfmon → Prop} (h : m.wp (fun _ => P 0) P s)
    (hr : returns m s = some (r, s')) : P r s' := by
  unfold returns at hr
  unfold Prog.wp at h
  split at hr <;> simp_all

theorem Step.wp {call : Call} {P : Perfmon → Prop} (hs : Step M B s call s')
    (h : (call.prog M B).wp (fun _ => P) (fun _ => P) s) : P s' := by
  obtain ⟨r, hr⟩ := hs
  exact of_returns (P := fun _ => P) h hr

theorem step_of_next {call : Call} (h : s.next M B call = some s') : Step M B s call s' := by
  obtain ⟨⟨r, s1⟩, hr, rfl⟩ := Option.map_eq_some_iff.mp h
  exact ⟨r, hr⟩

theorem Run.of_afterIf {guard : Perfmon → Call → Prop} [∀ s call, Decidable (guard s call)]
    {calls : List Call} {t : Perfmon} (h : Perfmon.afterIf M B guard calls s = some t) :
    Run (Step M B) guard s t :=
  Run.of_exec (fun _ _ _ => step_of_next) h

end Returns

end Likwid
