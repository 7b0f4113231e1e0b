import AutoDrop.EventLoopCore

/-!
`runEventLoop` reaches `epoll_wait` only with every coroutine suspended, whatever the
coroutines do in their turns.
-/

namespace AutoDrop.EventLoop

open LabelledRun

variable {Co Node : Type*} {loop next : EventLoop Co Node} {co : Co}

structure LoopInvariant (loop : EventLoop Co Node) : Prop where
  running : ∀ co, loop.coState co = some .running → loop.currentCo = some co
  current : ∀ co, loop.currentCo = some co → loop.coState co = some .running
  control : loop.currentCo ≠ none → ∃ rest, loop.phase = .resuming rest true
  snapshot : ∀ rest still, loop.phase = .resuming rest still →
    rest.Nodup ∧ ∀ co ∈ rest, loop.coState co = some .ready
  exhausted : ∀ rest, loop.phase = .resuming rest false →
    rest = [] ∧ ∀ co ∈ loop.coRoutines, loop.coState co ≠ some .ready
  asleep : loop.phase = .polling → ∀ co ∈ loop.coRoutines, loop.coState co = some .suspend
  listed : ∀ co ∈ loop.coRoutines, loop.coState co ≠ none
  nodup : loop.coRoutines.Nodup

theorem start_loopInvariant : LoopInvariant (start : EventLoop Co Node) where
  running := by simp [start]
  current := by simp [start]
  control := by simp [start]
  snapshot := by simp [start]
  exhausted := by simp [start]
  asleep := by simp [start]
  listed := by simp [start]
  nodup := by simp [start]

theorem LoopInvariant.acting_phase (invariant : LoopInvariant loop) (acting : loop.Acting) :
    loop.phase = .outside ∨ ∃ rest, loop.phase = .resuming rest true := by
  rcases acting with outside | controlled
  · exact .inl outside
  · exact .inr (invariant.control controlled)

theorem LoopInvariant.not_running (invariant : LoopInvariant loop)
    (between : loop.currentCo = none) : loop.coState co ≠ some .running := by
  intro runs
  simp [invariant.running co runs] at between

theorem LoopInvariant.currentCo_eq_none (invariant : LoopInvariant loop)
    (other : ∀ rest, loop.phase ≠ .resuming rest true) : loop.currentCo = none := by
  by_contra controlled
  obtain ⟨rest, resuming⟩ := invariant.control controlled
  exact other rest resuming

theorem LoopInvariant.of_fdToNode (invariant : LoopInvariant loop)
    (fdToNode : List (Nat × Node)) : LoopInvariant { loop with fdToNode } :=
  ⟨invariant.running, invariant.current, invariant.control, invariant.snapshot,
    invariant.exhausted, invariant.asleep, invariant.listed, invariant.nodup⟩

theorem rephase_loopInvariant {phase : LoopPhase Co} (invariant : LoopInvariant loop)
    (idle : loop.currentCo = none) (quiet : phase ≠ .polling)
    (notResuming : ∀ rest still, phase ≠ .resuming rest still) :
    LoopInvariant { loop with phase } :=
  ⟨invariant.running, invariant.current, fun controlled => absurd idle controlled,
    fun rest still resuming => absurd resuming (notResuming rest still),
    fun rest resuming => absurd resuming (notResuming rest false),
    fun polling => absurd polling quiet, invariant.listed, invariant.nodup⟩

section Actions

theorem registerNode_loopInvariant {fd : Nat} {node : Node} (invariant : LoopInvariant loop) :
    LoopInvariant (loop.registerNode fd node) := by
  unfold registerNode
  split
  · exact invariant.of_fdToNode _
  · exact invariant

theorem unregisterNode_loopInvariant {fd : Nat} (invariant : LoopInvariant loop) :
    LoopInvariant (loop.unregisterNode fd) :=
  invariant.of_fdToNode _

variable [DecidableEq Co]

theorem addCo_loopInvariant {task : Option Node} (invariant : LoopInvariant loop)
    (unborn : loop.coState co = none)
    (calm : loop.phase ≠ .polling ∧ ∀ rest, loop.phase ≠ .resuming rest false) :
    LoopInvariant (loop.addCo co task) := by
  have other {which : Co} (known : loop.coState which ≠ none) :
      Function.update loop.coState co (some .ready) which = loop.coState which := by
    refine Function.update_of_ne ?_ _ _
    rintro rfl
    exact known unborn
  refine ⟨fun which runs => ?_, fun which current => ?_, invariant.control,
    fun rest still resuming => ?_, fun rest resuming => absurd resuming (calm.2 rest),
    fun polling => absurd polling calm.1, fun which member => ?_, ?_⟩
  · by_cases same : which = co
    · simp [addCo, same] at runs
    · exact invariant.running which (by simpa [addCo, same] using runs)
  · have runs := invariant.current which current
    exact (other (by simp [runs])).trans runs
  · obtain ⟨distinct, ready⟩ := invariant.snapshot rest still resuming
    refine ⟨distinct, fun which member => ?_⟩
    have before := ready which member
    exact (other (by simp [before])).trans before
  · by_cases same : which = co
    · simp [addCo, same]
    · have before : which ∈ loop.coRoutines := by simpa [addCo, same] using member
      simpa [addCo, same] using invariant.listed which before
  · have absent : co ∉ loop.coRoutines := fun member => invariant.listed co member unborn
    simpa [addCo, List.nodup_append] using
      ⟨invariant.nodup, fun which member same => absent (same ▸ member)⟩

theorem setReady_loopInvariant (invariant : LoopInvariant loop) (acting : loop.Acting)
    (suspended : loop.coState co = some .suspend) :
    LoopInvariant (loop.setCoState co .ready) := by
  have calm := invariant.acting_phase acting
  refine ⟨fun which runs => ?_, fun which current => ?_, invariant.control,
    fun rest still resuming => ?_, fun rest resuming => ?_, fun polling => ?_,
    fun which member => ?_, invariant.nodup⟩
  · by_cases same : which = co
    · simp [setCoState, same] at runs
    · exact invariant.running which (by simpa [setCoState, same] using runs)
  · have runs := invariant.current which current
    have apart : which ≠ co := fun same => by simp [same, suspended] at runs
    simpa [setCoState, apart] using runs
  · obtain ⟨distinct, ready⟩ := invariant.snapshot rest still resuming
    refine ⟨distinct, fun which member => ?_⟩
    have before := ready which member
    have apart : which ≠ co := fun same => by simp [same, suspended] at before
    simpa [setCoState, apart] using before
  · simp only [setCoState] at resuming
    simp [resuming] at calm
  · simp only [setCoState] at polling
    simp [polling] at calm
  · by_cases same : which = co
    · simp [setCoState, same]
    · simpa [setCoState, same] using invariant.listed which member

theorem leaveTurn_loopInvariant {state : AcrState} (invariant : LoopInvariant loop)
    (current : loop.currentCo = some co) (left : state = .suspend ∨ state = .dead) :
    LoopInvariant (loop.leaveTurn co state) := by
  have runs := invariant.current co current
  obtain ⟨remaining, phase⟩ := invariant.control (by simp [current])
  refine ⟨fun which running => ?_, by simp [leaveTurn], by simp [leaveTurn],
    fun rest still resuming => ?_, fun rest resuming => ?_, fun polling => ?_,
    fun which member => ?_, invariant.nodup⟩
  · by_cases same : which = co
    · rcases left with rfl | rfl <;> simp [leaveTurn, setCoState, same] at running
    · have before := invariant.running which (by simpa [leaveTurn, setCoState, same] using running)
      exact absurd (Option.some.inj (before.symm.trans current)) same
  · obtain ⟨distinct, ready⟩ := invariant.snapshot rest still resuming
    refine ⟨distinct, fun which member => ?_⟩
    have before := ready which member
    have apart : which ≠ co := fun same => by simp [same, runs] at before
    simpa [leaveTurn, setCoState, apart] using before
  · simp [leaveTurn, setCoState, phase] at resuming
  · simp [leaveTurn, setCoState, phase] at polling
  · by_cases same : which = co
    · simp [leaveTurn, setCoState, same]
    · simpa [leaveTurn, setCoState, same] using invariant.listed which member

end Actions

section Turns

theorem collect_loopInvariant (invariant : LoopInvariant loop) (phase : loop.phase = .collecting) :
    LoopInvariant { loop with phase := .resuming loop.readyCo (!loop.readyCo.isEmpty) } := by
  have idle := invariant.currentCo_eq_none (by simp [phase])
  refine ⟨invariant.running, invariant.current, by simp [idle], fun rest still resuming => ?_,
    fun rest resuming => ?_, by simp, invariant.listed, invariant.nodup⟩
  · simp only [LoopPhase.resuming.injEq] at resuming
    rw [← resuming.1]
    exact ⟨invariant.nodup.filter _, fun which member => by simpa [readyCo] using
      (List.mem_filter.mp member).2⟩
  · simp only [LoopPhase.resuming.injEq, Bool.not_eq_eq_eq_not, Bool.not_false,
      List.isEmpty_iff] at resuming
    refine ⟨resuming.1.symm.trans resuming.2, fun which member ready => ?_⟩
    have collected : which ∈ loop.readyCo := List.mem_filter.mpr ⟨member, by simpa using ready⟩
    simp [resuming.2] at collected

theorem sweep_loopInvariant {still : Bool} (invariant : LoopInvariant loop)
    (phase : loop.phase = .resuming [] still) (idle : loop.currentCo = none) :
    LoopInvariant { loop.eraseDead with phase := loop.afterSweep still } := by
  have notResuming (rest : List Co) (more : Bool) :
      loop.afterSweep still ≠ .resuming rest more := by
    unfold afterSweep
    split
    · simp
    · split <;> simp
  refine ⟨invariant.running, invariant.current, fun controlled => absurd idle controlled,
    fun rest more resuming => absurd resuming (notResuming rest more),
    fun rest resuming => absurd resuming (notResuming rest false),
    fun polling which member => ?_, fun which member => ?_, invariant.nodup.filter _⟩
  · have last : still = false := by
      cases still with
      | true => simp [afterSweep] at polling
      | false => rfl
    subst last
    obtain ⟨listed, alive⟩ := List.mem_filter.mp member
    have unready := (invariant.exhausted _ phase).2 which listed
    have born := invariant.listed which listed
    have halted : loop.coState which ≠ some .running := invariant.not_running idle
    cases state : loop.coState which with
    | none => exact absurd state born
    | some state' =>
        cases state' with
        | ready => exact absurd state unready
        | running => exact absurd state halted
        | dead => simp [state] at alive
        | suspend => exact state
  · exact invariant.listed which (List.mem_filter.mp member).1

variable [DecidableEq Co]

theorem resumeNext_loopInvariant {rest : List Co} {still : Bool} (invariant : LoopInvariant loop)
    (phase : loop.phase = .resuming (co :: rest) still) (idle : loop.currentCo = none) :
    LoopInvariant ({ loop with phase := .resuming rest still }.resumeCo co) := by
  obtain ⟨distinct, ready⟩ := invariant.snapshot _ _ phase
  have more : still = true := by
    cases still with
    | true => rfl
    | false => simpa using (invariant.exhausted _ phase).1
  subst still
  refine ⟨fun which runs => ?_, fun which current => ?_, fun _ => ⟨rest, rfl⟩,
    fun others still resuming => ?_, fun others resuming => ?_, fun polling => ?_,
    fun which member => ?_, invariant.nodup⟩
  · by_cases same : which = co
    · simp [resumeCo, setCoState, same]
    · have before : loop.coState which = some .running := by
        simpa [resumeCo, setCoState, same] using runs
      exact absurd before (invariant.not_running idle)
  · have same : co = which := by simpa [resumeCo, setCoState] using current
    simp [resumeCo, setCoState, same]
  · simp only [resumeCo, setCoState, LoopPhase.resuming.injEq] at resuming
    rw [← resuming.1]
    refine ⟨(List.nodup_cons.mp distinct).2, fun which member => ?_⟩
    have apart : which ≠ co := fun same => (List.nodup_cons.mp distinct).1 (same ▸ member)
    simpa [resumeCo, setCoState, apart] using ready which (List.mem_cons_of_mem _ member)
  · simp [resumeCo, setCoState] at resuming
  · simp [resumeCo, setCoState] at polling
  · by_cases same : which = co
    · simp [resumeCo, setCoState, same]
    · simpa [resumeCo, setCoState, same] using invariant.listed which member

theorem dispatch_loopInvariant {event : Option (Nat × Co)} (invariant : LoopInvariant loop)
    (phase : loop.phase = .polling) (unborn : ∀ pair ∈ event, loop.coState pair.2 = none) :
    LoopInvariant { loop.dispatch event with phase := .entering } := by
  have idle := invariant.currentCo_eq_none (by simp [phase])
  have entered : LoopInvariant { loop with phase := .entering } :=
    rephase_loopInvariant invariant idle (by simp) (by simp)
  unfold dispatch
  split
  · exact entered
  · rename_i fd co
    split
    · exact entered
    · rename_i node _
      exact addCo_loopInvariant entered (unborn (fd, co) rfl) (by simp)

end Turns

variable [DecidableEq Co]

theorem stepLoop_loopInvariant {label : LoopLabel Co Node} (invariant : LoopInvariant loop)
    (taken : loop.stepLoop label = some next) : LoopInvariant next := by
  cases label with
  | addCo | setReady | registerNode | unregisterNode | yieldCo | finish =>
      simp [stepLoop] at taken
  | runEventLoop =>
      simp only [stepLoop] at taken
      split at taken
      · rename_i phase
        simp only [Option.some.injEq] at taken
        subst next
        exact rephase_loopInvariant invariant (invariant.currentCo_eq_none (by simp [phase]))
          (by simp) (by simp)
      · cases taken
  | enter =>
      simp only [stepLoop] at taken
      split at taken
      · rename_i phase
        simp only [Option.some.injEq] at taken
        subst next
        refine rephase_loopInvariant invariant (invariant.currentCo_eq_none (by simp [phase])) ?_ ?_
        · split <;> simp
        · intro rest still
          split <;> simp
      · cases taken
  | collect =>
      simp only [stepLoop] at taken
      split at taken
      · rename_i phase
        simp only [Option.some.injEq] at taken
        subst next
        exact collect_loopInvariant invariant phase
      · cases taken
  | resumeNext =>
      simp only [stepLoop] at taken
      split at taken
      · rename_i phase idle
        simp only [Option.some.injEq] at taken
        subst next
        exact resumeNext_loopInvariant invariant phase idle
      · cases taken
  | sweep =>
      simp only [stepLoop] at taken
      split at taken
      · rename_i phase idle
        simp only [Option.some.injEq] at taken
        subst next
        exact sweep_loopInvariant invariant phase idle
      · cases taken
  | epollWait event =>
      simp only [stepLoop] at taken
      split at taken
      · rename_i guard
        simp only [Option.some.injEq] at taken
        subst next
        exact dispatch_loopInvariant invariant guard.1 guard.2
      · cases taken

/-- What the running coroutine may do, besides the turns of `runEventLoop`. -/
theorem step_inversion {label : LoopLabel Co Node} : loop.step label = some next →
    match label with
    | .addCo co => (loop.Acting ∧ loop.coState co = none) ∧ loop.addCo co none = next
    | .setReady co =>
        (loop.Acting ∧ loop.coState co = some .suspend) ∧ loop.setCoState co .ready = next
    | .registerNode fd node => loop.Acting ∧ loop.registerNode fd node = next
    | .unregisterNode fd => loop.Acting ∧ loop.unregisterNode fd = next
    | .yieldCo => ∃ co, loop.currentCo = some co ∧ loop.leaveTurn co .suspend = next
    | .finish => ∃ co, loop.currentCo = some co ∧ loop.leaveTurn co .dead = next
    | label => loop.stepLoop label = some next := by
  intro taken
  cases label with
  | runEventLoop | enter | collect | resumeNext | sweep | epollWait => exact taken
  | addCo | setReady | registerNode | unregisterNode =>
      simpa only [step, Option.ite_none_right_eq_some, Option.some.injEq] using taken
  | yieldCo | finish => exact Option.map_eq_some_iff.mp taken

theorem step_loopInvariant {label : LoopLabel Co Node} (invariant : LoopInvariant loop)
    (taken : loop.step label = some next) : LoopInvariant next := by
  have moved := step_inversion taken
  cases label with
  | runEventLoop | enter | collect | resumeNext | sweep | epollWait =>
      exact stepLoop_loopInvariant invariant moved
  | addCo co =>
      obtain ⟨⟨acting, unborn⟩, rfl⟩ := moved
      refine addCo_loopInvariant invariant unborn ?_
      rcases invariant.acting_phase acting with phase | ⟨rest, phase⟩ <;> simp [phase]
  | setReady co =>
      obtain ⟨⟨acting, suspended⟩, rfl⟩ := moved
      exact setReady_loopInvariant invariant acting suspended
  | registerNode fd node =>
      obtain ⟨-, rfl⟩ := moved
      exact registerNode_loopInvariant invariant
  | unregisterNode fd =>
      obtain ⟨-, rfl⟩ := moved
      exact unregisterNode_loopInvariant invariant
  | yieldCo | finish =>
      obtain ⟨co, current, rfl⟩ := moved
      exact leaveTurn_loopInvariant invariant current (by simp)

theorem reachable_loopInvariant (reached : Reachable step start loop) : LoopInvariant loop :=
  invariant_of_reachable start_loopInvariant
    (fun _ _ _ invariant taken => step_loopInvariant invariant taken) reached

/-- The coroutines are as they were, but for some that are erased behind their end. -/
structure SameCoRoutines (loop next : EventLoop Co Node) : Prop where
  coState : next.coState = loop.coState
  task : next.task = loop.task
  older : next.coRoutines ⊆ loop.coRoutines
  alive : ∀ co ∈ loop.coRoutines, loop.coState co ≠ some .dead → co ∈ next.coRoutines

/-- A step of `runEventLoop` other than a resume leaves the coroutines as they are, but for
the handler that `epoll_wait` adds. -/
theorem stepLoop_cases {label : LoopLabel Co Node} (other : label ≠ .resumeNext)
    (taken : loop.stepLoop label = some next) :
    next.fdToNode = loop.fdToNode ∧
      (loop.SameCoRoutines next ∨
        ∃ fd node co, loop.phase = .polling ∧ loop.lookupNode fd = some node ∧
          loop.coState co = none ∧
          next = { loop.addCo co (some node) with phase := .entering }) := by
  have same (phase : LoopPhase Co) : loop.SameCoRoutines { loop with phase } :=
    ⟨rfl, rfl, List.Subset.refl _, fun _ member _ => member⟩
  cases label with
  | addCo | setReady | registerNode | unregisterNode | yieldCo | finish =>
      simp [stepLoop] at taken
  | resumeNext => exact absurd rfl other
  | runEventLoop | enter | collect =>
      simp only [stepLoop, Option.ite_none_right_eq_some, Option.some.injEq] at taken
      obtain ⟨-, rfl⟩ := taken
      exact ⟨rfl, .inl (same _)⟩
  | sweep =>
      simp only [stepLoop] at taken
      split at taken
      · simp only [Option.some.injEq] at taken
        subst next
        refine ⟨rfl, .inl ⟨rfl, rfl, fun co member => (List.mem_filter.mp member).1, ?_⟩⟩
        exact fun co member alive => List.mem_filter.mpr ⟨member, decide_eq_true alive⟩
      · cases taken
  | epollWait event =>
      simp only [stepLoop, Option.ite_none_right_eq_some, Option.some.injEq] at taken
      obtain ⟨guard, rfl⟩ := taken
      unfold dispatch
      split
      · exact ⟨rfl, .inl (same _)⟩
      · rename_i fd co
        split
        · exact ⟨rfl, .inl (same _)⟩
        · rename_i node found
          exact ⟨rfl, .inr ⟨fd, node, co, guard.1, found, guard.2 (fd, co) rfl, rfl⟩⟩

theorem stepLoop_resumeNext (taken : loop.stepLoop .resumeNext = some next) :
    ∃ co rest still, loop.phase = .resuming (co :: rest) still ∧ loop.currentCo = none ∧
      next.currentCo = some co ∧
      next = { loop with phase := .resuming rest still }.resumeCo co := by
  simp only [stepLoop] at taken
  split at taken
  · rename_i co rest still phase idle
    simp only [Option.some.injEq] at taken
    subst next
    exact ⟨co, rest, still, phase, idle, rfl, rfl⟩
  · cases taken

/-- Whenever the loop blocks in `epoll_wait`, every listed coroutine is suspended. -/
theorem reachable_asleep (loop : EventLoop Co Node) (reached : Reachable step start loop)
    (polling : loop.phase = .polling) (co : Co) (listed : co ∈ loop.coRoutines) :
    loop.coState co = some .suspend :=
  (reachable_loopInvariant reached).asleep polling co listed

def oneSleeper : List (LoopLabel Nat Unit) :=
  [.addCo 0, .registerNode 5 (), .runEventLoop, .enter, .collect, .resumeNext, .addCo 1, .yieldCo,
    .sweep, .collect, .resumeNext, .setReady 0, .finish, .sweep, .collect, .resumeNext, .yieldCo,
    .sweep, .collect, .sweep]

theorem reachable_asleep_oneSleeper :
    ∃ loop, exec step (start : EventLoop Nat Unit) oneSleeper = some loop ∧
      loop.phase = .polling ∧ loop.coRoutines = [0] ∧ loop.coState 0 = some .suspend := by
  obtain ⟨loop, run⟩ := Option.isSome_iff_exists.mp
    (show (exec step (start : EventLoop Nat Unit) oneSleeper).isSome by rfl)
  have seen : (exec step (start : EventLoop Nat Unit) oneSleeper).map (fun loop =>
      (loop.phase, loop.coRoutines)) = some (.polling, [0]) := by rfl
  simp only [run, Option.map_some, Option.some.injEq, Prod.mk.injEq] at seen
  exact ⟨loop, run, seen.1, seen.2,
    reachable_asleep loop ⟨oneSleeper, run⟩ seen.1 0 (by simp [seen.2])⟩

end AutoDrop.EventLoop
