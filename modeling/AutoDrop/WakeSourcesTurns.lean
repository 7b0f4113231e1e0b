import AutoDrop.EventLoopDispatch
import AutoDrop.WakeSourcesInvariant

/-!
What `runEventLoop` does to the waking sources. Between an `epoll_wait` and the turn of the
handler it added nothing else runs, because every other coroutine is suspended then.
-/

namespace AutoDrop.CoWorld

open EventLoop

section Turns

variable {Co : Type*} {loop next : EventLoop Co (ScNode Co)}

theorem Handlers.rephase (handlers : Handlers loop) (coRoutines : List Co) (phase : LoopPhase Co)
    (due : ∀ handler node, loop.task handler = some node → node.internal = true →
      loop.coState handler = some .ready → Due { loop with coRoutines, phase } handler) :
    Handlers { loop with coRoutines, phase } :=
  ⟨handlers.awake, handlers.armed, due⟩

theorem enter_handlers (handlers : Handlers loop) :
    Handlers { loop with
      phase := if loop.fdToNode.isEmpty then .outside else .collecting } := by
  refine handlers.rephase loop.coRoutines _ fun handler node task internal ready => ?_
  have due := handlers.due handler node task internal ready
  obtain ⟨fd, found⟩ := handlers.armed handler node task internal (.inl ready)
  have registered : loop.fdToNode.isEmpty = false := by
    cases entries : loop.fdToNode with
    | nil => simp [lookupNode, entries] at found
    | cons => rfl
  exact ⟨due.idle, due.listed, due.alone, .inr (.inl (by simp [registered]))⟩

theorem collect_handlers (invariant : LoopInvariant loop) (handlers : Handlers loop) :
    Handlers { loop with phase := .resuming loop.readyCo (!loop.readyCo.isEmpty) } := by
  refine handlers.rephase loop.coRoutines _ fun handler node task internal ready => ?_
  have due := handlers.due handler node task internal ready
  have single : loop.readyCo = [handler] :=
    readyCo_eq_singleton invariant.nodup due.listed ready due.alone
  exact ⟨due.idle, due.listed, due.alone, .inr (.inr ⟨_, by rw [single]⟩)⟩

theorem Handlers.noHandler_of_polling (handlers : Handlers loop) (invariant : LoopInvariant loop)
    (polling : loop.phase = .polling) : NoHandler loop := by
  intro handler node task internal
  have idle := invariant.currentCo_eq_none (by simp [polling])
  cases state : loop.coState handler with
  | none => exact .inl rfl
  | some state' =>
      cases state' with
      | dead => exact .inr rfl
      | suspend => exact absurd state (handlers.awake handler node task internal)
      | running => exact absurd state (invariant.not_running idle)
      | ready =>
          have due := (handlers.due handler node task internal state).phase
          simp [polling] at due

variable [DecidableEq Co]

theorem dispatch_handlers {fd : Nat} {node : ScNode Co} {co : Co}
    (invariant : LoopInvariant loop) (handlers : Handlers loop) (polling : loop.phase = .polling)
    (found : loop.lookupNode fd = some node) :
    Handlers { loop.addCo co (some node) with phase := .entering } := by
  have idle := invariant.currentCo_eq_none (by simp [polling])
  have asleep := invariant.asleep polling
  have none := handlers.noHandler_of_polling invariant polling
  have other {which : Co} {known : ScNode Co} (apart : which ≠ co)
      (task : (loop.addCo co (some node)).task which = some known) :
      loop.task which = some known := by
    simpa [addCo, apart] using task
  refine ⟨fun handler known task internal suspended => ?_,
    fun handler known task internal about => ?_, fun handler known task internal ready => ?_⟩
  · by_cases same : handler = co
    · simp [addCo, same] at suspended
    · have state : loop.coState handler = some .suspend := by simpa [addCo, same] using suspended
      exact handlers.awake handler known (other same task) internal state
  · by_cases same : handler = co
    · have own : node = known := by simpa [addCo, same] using task
      exact ⟨fd, own ▸ found⟩
    · have state : (loop.addCo co (some node)).coState handler = loop.coState handler := by
        simp [addCo, same]
      rcases none handler known (other same task) internal with gone | gone <;>
        simp [state, gone] at about
  · by_cases same : handler = co
    · refine ⟨idle, by simp [addCo, same], fun which listed state => ?_, .inl rfl⟩
      by_cases apart : which = co
      · rw [apart, same]
      · have before : which ∈ loop.coRoutines := by simpa [addCo, apart] using listed
        simp [addCo, apart, asleep which before] at state
    · have state : (loop.addCo co (some node)).coState handler = loop.coState handler := by
        simp [addCo, same]
      rcases none handler known (other same task) internal with gone | gone <;>
        simp [state, gone] at ready

theorem stepLoop_handlers {label : LoopLabel Co (ScNode Co)} (other : label ≠ .resumeNext)
    (invariant : LoopInvariant loop) (handlers : Handlers loop)
    (taken : loop.stepLoop label = some next) : Handlers next := by
  cases label with
  | addCo | setReady | registerNode | unregisterNode | yieldCo | finish =>
      simp [stepLoop] at taken
  | resumeNext => exact absurd rfl other
  | enter =>
      simp only [stepLoop] at taken
      split at taken
      · simp only [Option.some.injEq] at taken
        subst next
        exact enter_handlers handlers
      · cases taken
  | collect =>
      simp only [stepLoop] at taken
      split at taken
      · simp only [Option.some.injEq] at taken
        subst next
        exact collect_handlers invariant handlers
      · cases taken
  | runEventLoop =>
      simp only [stepLoop] at taken
      split at taken
      · rename_i phase
        simp only [Option.some.injEq] at taken
        subst next
        refine handlers.rephase loop.coRoutines _
          fun handler node task internal ready => ?_
        have due := (handlers.due handler node task internal ready).phase
        simp [phase] at due
      · cases taken
  | sweep =>
      simp only [stepLoop] at taken
      split at taken
      · rename_i phase idle
        simp only [Option.some.injEq] at taken
        subst next
        refine handlers.rephase loop.eraseDead.coRoutines _
          fun handler node task internal ready => ?_
        have due := (handlers.due handler node task internal ready).phase
        simp [phase] at due
      · cases taken
  | epollWait event =>
      have cases := stepLoop_cases other taken
      simp only [stepLoop] at taken
      split at taken
      · rename_i guard
        have none := handlers.noHandler_of_polling invariant guard.1
        rcases cases with ⟨_, same | ⟨fd, node, co, _, found, unborn, rfl⟩⟩
        · refine NoHandler.handlers fun handler node known internal => ?_
          rw [same.coState]
          exact none handler node (same.task ▸ known) internal
        · exact dispatch_handlers invariant handlers guard.1 found
      · cases taken

end Turns

variable {Co Mutex : Type*} {world next : CoWorld Co Mutex} {co : Co} {yieldNo : Nat}
  {call : YieldCall Mutex}

theorem turn_worldInvariant [DecidableEq Co] {label : LoopLabel Co (ScNode Co)}
    {loop : EventLoop Co (ScNode Co)} (other : label ≠ .resumeNext)
    (invariant : WorldInvariant world) (taken : world.loop.stepLoop label = some loop) :
    WorldInvariant { world with loop } := by
  obtain ⟨fdToNode, change⟩ := stepLoop_cases other taken
  have lookup (fd : Nat) : loop.lookupNode fd = world.loop.lookupNode fd := by
    simp only [lookupNode, fdToNode]
  have states (which : Co) : loop.coState which = world.loop.coState which ∨
      world.loop.coState which = none ∧ loop.coState which = some .ready := by
    rcases change with same | ⟨fd, node, co, _, _, unborn, rfl⟩
    · exact .inl (by rw [same.coState])
    · by_cases new : which = co
      · exact .inr (by simp [addCo, new, unborn])
      · exact .inl (by simp [addCo, new])
  refine ⟨stepLoop_loopInvariant invariant.loop taken, ?_,
    stepLoop_handlers other invariant.loop invariant.handlers taken, ?_⟩
  · refine invariant.sources.frame (fun fd node found => .inl (lookup fd ▸ found)) (fun _ => rfl)
      fun which yieldNo call inside => ⟨?_, inside.2⟩
    rcases states which with same | ⟨unborn, _⟩
    · exact same.trans inside.1
    · exact absurd inside.1 (by simp [unborn])
  · refine invariant.logs.frame rfl rfl rfl rfl (fun which none => ?_) (fun which ready => ?_)
      fun which suspended => ?_ <;>
      rcases states which with same | ⟨unborn, state⟩ <;> simp_all

section Resume

variable {loop : EventLoop Co (ScNode Co)}

theorem resume_sources [DecidableEq Co] {rest : List Co} {still : Bool}
    (invariant : WorldInvariant world)
    (ready : world.loop.coState co = some .ready) :
    Sources (world.resume ({ world.loop with phase := .resuming rest still }.resumeCo co) co) := by
  refine invariant.sources.frame (fun fd node found => .inl found) (fun _ => rfl)
    fun which yieldNo call inside => ?_
  have apart : which ≠ co := fun same => by simp [SuspendedIn, same, ready] at inside
  simpa [SuspendedIn, resume, resumeCo, setCoState, apart] using inside

theorem resume_handlers [DecidableEq Co] {rest : List Co} {still : Bool}
    (handlers : Handlers world.loop) (phase : world.loop.phase = .resuming (co :: rest) still)
    (ready : world.loop.coState co = some .ready) :
    Handlers ({ world.loop with phase := .resuming rest still }.resumeCo co) := by
  have state {which : Co} (apart : which ≠ co) :
      ({ world.loop with phase := .resuming rest still }.resumeCo co).coState which =
        world.loop.coState which := by
    simp [resumeCo, setCoState, apart]
  refine ⟨fun handler node task internal suspended => ?_,
    fun handler node task internal about => ?_, fun handler node task internal about => ?_⟩
  · by_cases same : handler = co
    · simp [resumeCo, setCoState, same] at suspended
    · exact handlers.awake handler node task internal (state same ▸ suspended)
  · by_cases same : handler = co
    · exact handlers.armed handler node task internal (.inl (same ▸ ready))
    · exact handlers.armed handler node task internal (by simpa [state same] using about)
  · by_cases same : handler = co
    · simp [resumeCo, setCoState, same] at about
    · have due := (handlers.due handler node task internal (state same ▸ about)).phase
      simp [phase, Ne.symm same] at due

theorem resume_logs [DecidableEq Co] {rest : List Co} {still : Bool} (logs : Logs world)
    (ready : world.loop.coState co = some .ready) :
    Logs (world.resume ({ world.loop with phase := .resuming rest still }.resumeCo co) co) := by
  have state {which : Co} (apart : which ≠ co) :
      ({ world.loop with phase := .resuming rest still }.resumeCo co).coState which =
        world.loop.coState which := by
    simp [resumeCo, setCoState, apart]
  have yields {which : Co} {entry : Nat × YieldCall Mutex}
      (yielding : Function.update world.yielding co none which = some entry) :
      which ≠ co ∧ world.yielding which = some entry := by
    by_cases same : which = co
    · simp [same] at yielding
    · exact ⟨same, by simpa [same] using yielding⟩
  refine ⟨fun which unborn => ?_, fun which yieldNo call yielding => ?_,
    fun first second yieldNo call other left right => ?_, logs.woken, fun wake member => ?_,
    logs.wokenOnce, ?_, ?_, ?_, ?_⟩
  · by_cases same : which = co
    · simp [resume, same]
    · have before := logs.unborn which ((state same).symm.trans unborn)
      simpa [resume, same] using before
  · exact logs.numbered which yieldNo call (yields yielding).2
  · exact logs.unique first second yieldNo call other (yields left).2 (yields right).2
  · obtain ⟨bound, past⟩ := logs.wokenPast wake member
    refine ⟨bound, fun which call inside => ?_⟩
    obtain ⟨apart, yielding⟩ := yields inside.2
    exact past which call ⟨(state apart).symm.trans inside.1, yielding⟩
  · intro entry member
    rcases List.mem_cons.mp member with rfl | before
    · exact ready
    · exact logs.resumed entry before
  · intro entry member yieldNo ended
    rcases List.mem_cons.mp member with rfl | before
    · obtain ⟨⟨number, call⟩, yielding, rfl⟩ := Option.map_eq_some_iff.mp ended
      refine ⟨logs.numbered co number call yielding, fun which other again => ?_⟩
      obtain ⟨apart, yielding'⟩ := yields again
      exact apart (logs.unique which co number other call yielding' yielding)
    · obtain ⟨bound, past⟩ := logs.resumedPast entry before yieldNo ended
      exact ⟨bound, fun which call again => past which call (yields again).2⟩
  · intro entry member first outside
    by_cases same : entry.co = co
    · simp [resume, resumeCo, setCoState, same]
    · rcases List.mem_cons.mp member with rfl | before
      · exact absurd rfl same
      · have unyielding : world.yielding entry.co = none := by simpa [resume, same] using outside
        have known := logs.started entry before first unyielding
        simpa [resume, state same] using known
  · refine List.nodup_cons.mpr ⟨fun twice => ?_, logs.resumedOnce⟩
    obtain ⟨entry, member, same⟩ := List.mem_map.mp twice
    simp only [Prod.mk.injEq] at same
    cases yielding : world.yielding co with
    | none =>
        have first : entry.yieldThen = none := by rw [same.2, yielding]; rfl
        have running := logs.started entry member first (by rw [same.1]; exact yielding)
        exact running.2 (by rw [same.1]; exact ready)
    | some pair =>
        obtain ⟨number, call⟩ := pair
        have ended : entry.yieldThen = some number := by rw [same.2, yielding]; rfl
        exact (logs.resumedPast entry member number ended).2 co call yielding

theorem resume_worldInvariant [DecidableEq Co] (invariant : WorldInvariant world)
    (taken : world.loop.stepLoop .resumeNext = some loop) (current : loop.currentCo = some co) :
    WorldInvariant (world.resume loop co) := by
  obtain ⟨which, rest, still, phase, _, now, rfl⟩ := stepLoop_resumeNext taken
  obtain rfl : which = co := Option.some.inj (now.symm.trans current)
  have ready := (invariant.loop.snapshot _ _ phase).2 which (by simp)
  exact ⟨stepLoop_loopInvariant invariant.loop taken, resume_sources invariant ready,
    resume_handlers invariant.handlers phase ready, resume_logs invariant.logs ready⟩

end Resume

end AutoDrop.CoWorld
