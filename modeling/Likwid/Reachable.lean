import Likwid.Groups

/-!
# Every call as a sequence of moves

`Control.Move` lists what a call can do to the state machine at one go. Each
exported function makes a sequence of moves (`Step.moves`), the switch of the
active group several of them for each thread, so that what every move keeps
holds in every reachable state. The group set is consistent there
(`consistent_of_run`).
-/

namespace Likwid

variable {M : Machine} {B : Backend} {k k' : Control} {s s' t : Perfmon}

namespace Control

/-- A group is left: its timer stops and its run time grows. -/
def left (M : Machine) (k : Control) (a : ℕ) : Control :=
  (k.stopTimer M a).modifyGroup a (PerfmonEventSet.addRunTime M)

inductive Move (M : Machine) (k : Control) : Control → Prop
  | init {k' : Control} (h : k.Initialised k') : Move M k k'
  | finalize : Move M k { k with groupSet := none, intervals := [] }
  | addEventSet {k' : Control} (h : k.AddedEventSet M k') : Move M k k'
  | setUp {g : Int} {k' : Control} (h : k.SetUp g k') : Move M k k'
  | start {k' : Control} (h : k.Started M k') : Move M k k'
  | stop {k' : Control} (h : k.StoppedActive M k') : Move M k k'
  | stopFailed {k' : Control} (h : k.StopFailed M k') : Move M k k'
  | leave {a : ℕ} (h : k.active = some a) : Move M k (k.left M a)

abbrev Moves (M : Machine) : Control → Control → Prop := Relation.ReflTransGen (Move M)

theorem Moves.invariant {Inv : Control → Prop} (hmove : ∀ k k', Inv k → k.Move M k' → Inv k')
    (h : Moves M k k') (hk : Inv k) : Inv k' := by
  induction h with
  | refl => exact hk
  | tail _ hm ih => exact hmove _ _ ih hm

theorem Move.consistent (h : k.Move M k') (hk : k.Consistent) : k'.Consistent := by
  cases h with
  | init h => exact h.consistent
  | finalize => exact fun gs hgs => by cases hgs
  | addEventSet h => exact h.consistent hk
  | setUp h => exact h.consistent hk
  | start h => exact h.consistent hk
  | stop h => exact h.consistent hk
  | stopFailed h => exact h.consistent hk
  | leave _ => exact (hk.modifyGroup _ _).modifyGroup _ _

end Control

open Control (Moves)

theorem moves_of_eq (h : s'.control = s.control) : Moves M s.control s'.control := by
  rw [h]

/-! ## The switch -/

theorem switchRest_moves (threadId g : ℕ) (es : PerfmonEventSet) (newGroup : Int) :
    (do
      Prog.when (es.state = .setup)
        (onSlots g (Prog.forCells (clearInit threadId) es.numberOfEvents ()))
      let ret ← Prog.call 0 (perfmonSetupCounters M B newGroup)
      Prog.when (ret ≠ 0) (Prog.ret ret)
      Prog.when (es.state = .start) do
        let ret ← Prog.call 0 (perfmonStartCounters M B)
        Prog.when (ret ≠ 0) (Prog.ret ret) : PerfmonProg Unit).wp
      (fun _ s' => Moves M s.control s'.control) (fun _ s' => Moves M s.control s'.control) s := by
  have hclear : (Prog.when (es.state = .setup)
      (onSlots g (Prog.forCells (clearInit threadId) es.numberOfEvents ())) :
        PerfmonProg Unit).wp (fun _ s' => s'.control = s.control) (fun _ _ => False) s :=
    Prog.wp_when.mpr ⟨fun _ => clearInit_control _ _ _ s, fun _ => rfl⟩
  rw [Prog.wp_bind]
  refine Prog.wp_mono hclear (fun _ s1 hk1 => ?_) fun _ _ h => h.elim
  rw [Prog.wp_bind, Prog.wp_call]
  refine Prog.wp_mono (perfmonSetupCounters_control newGroup s1) (fun _ s2 hset => ?_)
    fun r s2 hfail => ?_
  · have h2 : Moves M s.control s2.control := by
      rw [← hk1]
      exact Relation.ReflTransGen.single (.setUp hset)
    simp only [Prog.wp_bind, Prog.wp_when, Prog.wp_call, Prog.wp_ret]
    refine ⟨fun hne => absurd rfl hne, fun _ => ⟨fun _ => ?_, fun _ => h2⟩⟩
    refine Prog.wp_mono (perfmonStartCounters_control s2) (fun _ s3 hstart => ?_)
      fun r s3 hfail => ?_
    · exact ⟨fun hne => absurd rfl hne, fun _ => h2.tail (.start hstart)⟩
    · have h3 : Moves M s.control s3.control := hfail.2 ▸ h2
      exact ⟨fun _ => h3, fun _ => h3⟩
  · have h2 : Moves M s.control s2.control := moves_of_eq (hfail.2.2.trans hk1)
    rw [Prog.wp_bind, Prog.wp_when, Prog.wp_ret]
    exact ⟨fun _ => h2, fun hz => absurd hfail.1 hz⟩

theorem perfmonSwitchActiveGroupThread_moves (threadId : ℕ) (newGroup : Int) (s : Perfmon) :
    (perfmonSwitchActiveGroupThread M B threadId newGroup).wp
      (fun _ s' => Moves M s.control s'.control) (fun _ s' => Moves M s.control s'.control) s := by
  unfold perfmonSwitchActiveGroupThread
  rw [Prog.wp_bind, wp_requireInit]
  refine ⟨fun gs hgs => ?_, fun _ => .refl⟩
  rw [Prog.wp_bind, wp_groupAt]
  intro h0 es hes
  dsimp only
  rw [Prog.wp_bind, wp_timerStop, Prog.wp_bind, Prog.wp_modify]
  let s1 : Perfmon := (s.stopTimer M gs.activeGroup.toNat).modifyGroup gs.activeGroup.toNat
    (PerfmonEventSet.addRunTime M)
  have hk1 : s1.control = s.control.left M gs.activeGroup.toNat := by
    rw [control_addRunTime, control_stopTimer]
    rfl
  have h1 : Moves M s.control s1.control := by
    rw [hk1]
    exact Relation.ReflTransGen.single (.leave (control_active hgs h0))
  show Prog.wp _ _ _ s1
  rw [Prog.wp_bind, Prog.wp_when]
  have hrest : ∀ s2 : Perfmon, Moves M s.control s2.control → Prog.wp _ _ _ s2 := fun s2 h2 =>
    Prog.wp_mono (switchRest_moves (M := M) (B := B) (s := s2) threadId gs.activeGroup.toNat es
      newGroup)
      (fun _ _ h => h2.trans h) fun _ _ h => h2.trans h
  refine ⟨fun _ => ?_, fun _ => hrest s1 h1⟩
  rw [Prog.wp_bind, Prog.wp_call]
  refine Prog.wp_mono (perfmonStopCounters_control s1) (fun _ s2 hstop => ?_) fun r s2 hfail => ?_
  · exact hrest s2 (h1.tail (.stop hstop))
  · exact hrest s2 (h1.tail (.stopFailed hfail.2))

theorem perfmonSwitchActiveGroup_moves (newGroup : Int) (s : Perfmon) :
    (perfmonSwitchActiveGroup M B newGroup).wp (fun _ s' => Moves M s.control s'.control)
      (fun _ s' => Moves M s.control s'.control) s := by
  unfold perfmonSwitchActiveGroup
  rw [Prog.wp_bind, wp_theGroupSet]
  intro gs _
  refine Prog.wp_foldlM (I := fun _ (s' : Perfmon) => Moves M s.control s'.control) ?_ .refl
  intro _ th _ s1 _ h1
  rw [Prog.wp_bind, Prog.wp_call]
  refine Prog.wp_mono (perfmonSwitchActiveGroupThread_moves th.threadId newGroup s1)
    (fun _ s2 h2 => ?_) fun r s2 h2 => ?_
  · rw [Prog.wp_when]
    exact ⟨fun hne => absurd rfl hne, fun _ => h1.trans h2⟩
  · rw [Prog.wp_when]
    exact ⟨fun _ => h1.trans h2, fun _ => h1.trans h2⟩

/-! ## Steps and runs -/

/-- **One step**: a call makes a sequence of moves. -/
theorem Step.moves {call : Call} (hs : Step M B s call s') : Moves M s.control s'.control := by
  refine hs.wp (P := fun s' => Moves M s.control s'.control) ?_
  cases call with
  | init threadsToCpu =>
      exact Prog.wp_mono (perfmonInit_control threadsToCpu s)
        (fun _ _ h => .single (.init h)) fun _ _ => moves_of_eq
  | finalize =>
      refine Prog.wp_mono (perfmonFinalize_control s) (fun _ _ hk => ?_)
        fun _ _ hk => moves_of_eq hk.2
      rw [hk]
      exact .single .finalize
  | addEventSet eventString force =>
      exact Prog.wp_mono (perfmonAddEventSet_control eventString force s)
        (fun _ _ h => h.elim) fun _ _ h => .single (.addEventSet h)
  | setupCounters groupId =>
      exact Prog.wp_mono (perfmonSetupCounters_control groupId s)
        (fun _ _ h => .single (.setUp h)) fun _ _ h => moves_of_eq h.2.2
  | startCounters =>
      exact Prog.wp_mono (perfmonStartCounters_control s) (fun _ _ h => .single (.start h))
        fun _ _ h => moves_of_eq h.2
  | startGroupCounters groupId =>
      exact Prog.wp_mono (perfmonStartGroupCounters_control groupId s)
        (fun _ _ h => .single (.start h)) fun _ _ h => moves_of_eq h.2
  | readCounters =>
      exact Prog.wp_mono (perfmonReadCountersOf_control _ _ s) (fun _ _ => moves_of_eq)
        fun _ _ => moves_of_eq
  | readGroupCounters groupId =>
      exact Prog.wp_mono (perfmonReadCountersOf_control _ _ s) (fun _ _ => moves_of_eq)
        fun _ _ => moves_of_eq
  | readGroupThreadCounters groupId threadId =>
      exact Prog.wp_mono (perfmonReadCountersOf_control _ _ s) (fun _ _ => moves_of_eq)
        fun _ _ => moves_of_eq
  | readCountersCpu cpu =>
      exact Prog.wp_mono (perfmonReadCountersCpu_control cpu s) (fun _ _ => moves_of_eq)
        fun _ _ => moves_of_eq
  | stopCounters =>
      exact Prog.wp_mono (perfmonStopCounters_control s) (fun _ _ h => .single (.stop h))
        fun _ _ h => .single (.stopFailed h.2)
  | stopGroupCounters groupId =>
      exact Prog.wp_mono (perfmonStopGroupCounters_control groupId s)
        (fun _ _ h => .single (.stop h)) fun _ _ h => .single (.stopFailed h.2)
  | switchActiveGroup newGroup => exact perfmonSwitchActiveGroup_moves newGroup s

theorem control_of_run {Inv : Control → Prop} {guard : Perfmon → Call → Prop}
    (hmove : ∀ k k', Inv k → k.Move M k' → Inv k') (h0 : Inv s.control)
    (h : Run (Step M B) guard s t) : Inv t.control := by
  have hstep : ∀ (u : Perfmon) (call : Call) (v : Perfmon), Inv u.control → guard u call →
      Step M B u call v → Inv v.control :=
    fun _ _ _ hu _ hs => hs.moves.invariant hmove hu
  exact Run.invariant (t := t) h0 hstep h

theorem Booted.consistent (h : Booted s) : s.control.Consistent := by
  intro gs hgs
  simp [Perfmon.control, h.groupSet] at hgs

theorem consistent_of_run {guard : Perfmon → Call → Prop} (h0 : Booted s)
    (h : Run (Step M B) guard s t) : t.control.Consistent :=
  control_of_run (fun _ _ hk hm => hm.consistent hk) h0.consistent h

end Likwid
