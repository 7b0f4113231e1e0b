import AutoDrop.WakeSourcesTurns
import AutoDrop.WakeSourcesActions

/-!
Each source wakes its coroutine only out of the call it was made for, and once.
-/

namespace AutoDrop.CoWorld

open LabelledRun EventLoop

variable {Co Mutex : Type*} {world next : CoWorld Co Mutex} {co : Co} {yieldNo : Nat}
  {call : YieldCall Mutex}

section Programs

theorem WorldInvariant.settled (invariant : WorldInvariant world) : Settled world :=
  ⟨invariant.loop, invariant.sources, invariant.logs⟩

theorem Settled.worldInvariant (settled : Settled world) (noHandler : NoHandler world.loop) :
    WorldInvariant world :=
  ⟨settled.loop, settled.sources, noHandler.handlers, settled.logs⟩

theorem NoHandler.plain_of_suspended (noHandler : NoHandler world.loop)
    (suspended : world.loop.coState co = some .suspend) :
    ∀ node, world.loop.task co = some node → node.internal = false := by
  intro node task
  cases internal : node.internal with
  | false => rfl
  | true => rcases noHandler co node task internal with state | state <;> simp [state] at suspended

theorem plain_of_executesProgram (executes : world.executesProgram co = true) :
    ∀ node, world.loop.task co = some node → node.internal = false := by
  intro node task
  simpa [executesProgram, task] using executes

theorem program_eq_some (program : world.program = some co) :
    world.loop.currentCo = some co ∧
      ∀ node, world.loop.task co = some node → node.internal = false := by
  obtain ⟨current, guard⟩ := Option.filter_eq_some_iff.mp program
  simp only [Bool.and_eq_true] at guard
  exact ⟨current, plain_of_executesProgram guard.1⟩

theorem WorldInvariant.noHandler (invariant : WorldInvariant world)
    (acting : world.loop.phase = .outside ∨ ∃ co, world.loop.currentCo = some co ∧
      ∀ node, world.loop.task co = some node → node.internal = false) :
    NoHandler world.loop := by
  intro handler node task internal
  cases state : world.loop.coState handler with
  | none => exact .inl rfl
  | some state' =>
      cases state' with
      | dead => exact .inr rfl
      | suspend => exact absurd state (invariant.handlers.awake handler node task internal)
      | running =>
          have current := invariant.loop.running handler state
          rcases acting with outside | ⟨co, now, plain⟩
          · obtain ⟨rest, phase⟩ := invariant.loop.control (by simp [current])
            simp [outside] at phase
          · obtain rfl : handler = co := Option.some.inj (current.symm.trans now)
            simp [plain node task] at internal
      | ready =>
          have due := invariant.handlers.due handler node task internal state
          rcases acting with outside | ⟨co, now, _⟩
          · have phase := due.phase
            simp [outside] at phase
          · have idle := due.idle
            simp [now] at idle

theorem acting_of_program (acting : world.loop.phase = .outside ∨ world.program.isSome = true) :
    world.loop.Acting ∧ (world.loop.phase = .outside ∨ ∃ co, world.loop.currentCo = some co ∧
      ∀ node, world.loop.task co = some node → node.internal = false) := by
  rcases acting with outside | running
  · exact ⟨.inl outside, .inl outside⟩
  · obtain ⟨co, program⟩ := Option.isSome_iff_exists.mp running
    exact ⟨.inr (by simp [(program_eq_some program).1]), .inr ⟨co, program_eq_some program⟩⟩

theorem reregister_settled {base : CoWorld Co Mutex} (settled : Settled world)
    (prepared : Prepared world base) (mutexes : base.mutexes = world.mutexes)
    (lookup : ∀ fd node, base.loop.lookupNode fd = some node →
      world.loop.lookupNode fd = some node ∨ node = .other) : Settled base := by
  obtain ⟨fdToNode, queues, rfl⟩ := prepared
  exact ⟨settled.loop.of_fdToNode fdToNode, settled.sources.frame lookup
    (fun mutex => by rw [mutexes]) fun _ _ _ inside => inside, settled.logs.frame rfl rfl rfl rfl
      (fun _ gone => gone) (fun _ ready => .inr ready) fun _ suspended => suspended⟩

theorem NoHandler.prepared {base : CoWorld Co Mutex} (noHandler : NoHandler world.loop)
    (prepared : Prepared world base) : NoHandler base.loop := by
  obtain ⟨fdToNode, mutexes, rfl⟩ := prepared
  exact noHandler

theorem registerOther_worldInvariant {fd : Nat} (invariant : WorldInvariant world)
    (noHandler : NoHandler world.loop) : WorldInvariant (world.registerNode fd .other) := by
  have prepared := (Prepared.refl world).registerNode fd .other
  refine (reregister_settled invariant.settled prepared rfl
    fun other node found => ?_).worldInvariant (noHandler.prepared prepared)
  cases free : world.loop.lookupNode fd with
  | none =>
      rcases found_registerNode free found with before | ⟨_, rfl⟩
      · exact .inl before
      · exact .inr rfl
  | some taken =>
      simp only [CoWorld.registerNode, EventLoop.registerNode, free, Option.isNone_some,
        Bool.false_eq_true, ↓reduceIte] at found
      exact .inl found

theorem unregisterOther_worldInvariant {fd : Nat} (invariant : WorldInvariant world)
    (noHandler : NoHandler world.loop) : WorldInvariant (world.unregisterNode fd) := by
  have prepared := (Prepared.refl world).unregisterNode fd
  exact (reregister_settled invariant.settled prepared rfl fun other node found =>
    .inl (found_unregisterNode found).2).worldInvariant (noHandler.prepared prepared)

end Programs

section Steps

variable [DecidableEq Co]

/-- What one step does, with what it found: the program of the running coroutine acts, or
the loop, a handler or a coroutine that is inside `lock`. -/
inductive Effect [DecidableEq Mutex] (world : CoWorld Co Mutex) : CoWorld Co Mutex → Prop
  | turn {label : LoopLabel Co (ScNode Co)} {loop : EventLoop Co (ScNode Co)}
      (other : label ≠ .resumeNext) (moved : world.loop.stepLoop label = some loop) :
      Effect world { world with loop }
  | resumeNext {loop : EventLoop Co (ScNode Co)} {co : Co}
      (moved : world.loop.stepLoop .resumeNext = some loop) (current : loop.currentCo = some co) :
      Effect world (world.resume loop co)
  | handleEvent {co : Co} {node : ScNode Co} (current : world.loop.currentCo = some co)
      (task : world.loop.task co = some node) (internal : node.internal = true) :
      Effect world { world.handleNode node with
        loop := (world.handleNode node).loop.leaveTurn co .dead }
  | addCo {co : Co} (acting : world.loop.phase = .outside ∨ world.program.isSome = true)
      (unborn : world.loop.coState co = none) :
      Effect world { world with loop := world.loop.addCo co none }
  | registerOther {fd : Nat} (acting : world.loop.phase = .outside ∨ world.program.isSome = true) :
      Effect world (world.registerNode fd .other)
  | unregisterOther {fd : Nat}
      (acting : world.loop.phase = .outside ∨ world.program.isSome = true)
      (plain : (world.loop.lookupNode fd).all fun node => !node.internal) :
      Effect world (world.unregisterNode fd)
  | retry {co : Co} {mutex : Mutex} (current : world.loop.currentCo = some co)
      (retrying : world.retrying co = some mutex) (executes : world.executesProgram co = true) :
      Effect world ({ world with
        retrying := Function.update world.retrying co none }.testHolder co mutex)
  | yieldByFd {co : Co} {fd : Nat} {timer : Option Nat} (program : world.program = some co)
      (free : world.loop.lookupNode fd = none)
      (timers : ∀ timerFd ∈ timer, timerFd ≠ fd ∧ world.loop.lookupNode timerFd = none) :
      Effect world (world.yieldByFd co fd timer)
  | yieldByTimer {co : Co} {timerFd : Nat} (program : world.program = some co)
      (free : world.loop.lookupNode timerFd = none) : Effect world (world.yieldByTimer co timerFd)
  | lock {co : Co} {mutex : Mutex} (program : world.program = some co) :
      Effect world (world.lock co mutex)
  | unlock {co : Co} {mutex : Mutex} (program : world.program = some co) :
      Effect world (world.unlock mutex)
  | finish {co : Co} (program : world.program = some co) :
      Effect world { world with loop := world.loop.leaveTurn co .dead }

theorem step_turn [DecidableEq Mutex] {label : LoopLabel Co (ScNode Co)}
    (other : label ≠ .resumeNext) : step world (.turn label) =
      (world.loop.stepLoop label).map fun loop => { world with loop } := by
  cases label <;> first | exact absurd rfl other | rfl

theorem stepProgram_effect [DecidableEq Mutex] {label : WorldLabel Co Mutex}
    (program : world.program = some co) (taken : world.stepProgram co label = some next) :
    Effect world next := by
  cases label with
  | turn | resumeNext | handleEvent | addCo | registerOther | unregisterOther | retry =>
      simp [stepProgram] at taken
  | yieldByFd fd timer =>
      simp only [stepProgram] at taken
      split at taken
      · rename_i free
        obtain rfl := Option.some.inj taken
        exact .yieldByFd program free.1 free.2
      · cases taken
  | yieldByTimer timerFd =>
      simp only [stepProgram] at taken
      split at taken
      · rename_i free
        obtain rfl := Option.some.inj taken
        exact .yieldByTimer program free
      · cases taken
  | lock mutex =>
      obtain rfl := Option.some.inj taken
      exact .lock program
  | unlock mutex =>
      obtain rfl := Option.some.inj taken
      exact .unlock program
  | finish =>
      obtain rfl := Option.some.inj taken
      exact .finish program

theorem step_effect [DecidableEq Mutex] {label : WorldLabel Co Mutex}
    (taken : step world label = some next) : Effect world next := by
  have programmed (same : (world.program.bind fun co => world.stepProgram co label) = some next) :
      Effect world next := by
    obtain ⟨co, program, taken⟩ := Option.bind_eq_some_iff.mp same
    exact stepProgram_effect program taken
  cases label with
  | yieldByFd | yieldByTimer | lock | unlock | finish => exact programmed taken
  | turn label =>
      by_cases other : label = .resumeNext
      · simp [step, other] at taken
      · rw [step_turn other] at taken
        obtain ⟨loop, moved, rfl⟩ := Option.map_eq_some_iff.mp taken
        exact .turn other moved
  | resumeNext =>
      obtain ⟨loop, moved, rest⟩ := Option.bind_eq_some_iff.mp taken
      obtain ⟨co, current, rfl⟩ := Option.map_eq_some_iff.mp rest
      exact .resumeNext moved current
  | handleEvent =>
      obtain ⟨co, current, rest⟩ := Option.bind_eq_some_iff.mp taken
      obtain ⟨node, task, handled⟩ := Option.bind_eq_some_iff.mp rest
      split at handled
      · rename_i internal
        obtain rfl := Option.some.inj handled
        exact .handleEvent current task internal
      · cases handled
  | addCo co =>
      simp only [step] at taken
      split at taken
      · rename_i guard
        obtain rfl := Option.some.inj taken
        exact .addCo guard.1 guard.2
      · cases taken
  | registerOther fd =>
      simp only [step] at taken
      split at taken
      · rename_i guard
        obtain rfl := Option.some.inj taken
        exact .registerOther guard
      · cases taken
  | unregisterOther fd =>
      simp only [step] at taken
      split at taken
      · rename_i guard
        obtain rfl := Option.some.inj taken
        exact .unregisterOther guard.1 guard.2
      · cases taken
  | retry =>
      obtain ⟨co, current, rest⟩ := Option.bind_eq_some_iff.mp taken
      obtain ⟨mutex, retrying, tested⟩ := Option.bind_eq_some_iff.mp rest
      split at tested
      · rename_i executes
        obtain rfl := Option.some.inj tested
        exact .retry current retrying executes
      · cases tested

def Moves (world next : CoWorld Co Mutex) (co : Co) (state : AcrState) : Prop :=
  next.loop.task = world.loop.task ∧
    next.loop.coState = Function.update world.loop.coState co (some state)

theorem Prepared.suspend_moves {base : CoWorld Co Mutex} (prepared : Prepared world base) :
    Moves world (base.suspend co call) co .suspend := by
  obtain ⟨_, _, rfl⟩ := prepared
  exact ⟨rfl, rfl⟩

theorem Prepared.setReady_moves {base : CoWorld Co Mutex} (prepared : Prepared world base)
    (co : Co) (yieldNo : Nat) : Moves world (base.setReady co yieldNo) co .ready := by
  obtain ⟨_, _, rfl⟩ := prepared
  exact ⟨rfl, rfl⟩

theorem yieldByFd_moves {fd : Nat} {timer : Option Nat} :
    Moves world (world.yieldByFd co fd timer) co .suspend := by
  cases timer with
  | none => exact ((Prepared.refl world).registerNode fd _).suspend_moves
  | some timerFd =>
      exact (((Prepared.refl world).registerNode timerFd _).registerNode fd _).suspend_moves

theorem yieldByTimer_moves {timerFd : Nat} :
    Moves world (world.yieldByTimer co timerFd) co .suspend :=
  ((Prepared.refl world).registerNode timerFd _).suspend_moves

theorem finish_moves :
    Moves world { world with loop := world.loop.leaveTurn co .dead } co .dead :=
  ⟨rfl, rfl⟩

theorem testHolder_moves [DecidableEq Mutex] {mutex : Mutex} :
    (world.testHolder co mutex).loop = world.loop ∨
      Moves world (world.testHolder co mutex) co .suspend := by
  unfold testHolder
  split
  · exact .inr ((Prepared.refl world).setMutex mutex _).suspend_moves
  · exact .inl rfl

theorem unlock_moves [DecidableEq Mutex] {mutex : Mutex} (settled : Settled world) :
    (world.unlock mutex).loop = world.loop ∨ ∃ co, world.loop.coState co = some .suspend ∧
      Moves world (world.unlock mutex) co .ready := by
  simp only [unlock]
  split
  · rename_i co yieldNo others free queue
    rw [QueuedMutex.waitCo_leave] at queue
    have inside := settled.sources.queued mutex co yieldNo (by simp [queue])
    exact .inr ⟨co, inside.1, ((Prepared.refl world).setMutex mutex _).setReady_moves co yieldNo⟩
  · exact .inl rfl

theorem handleNode_moves {fd : Nat} {node : ScNode Co} (settled : Settled world)
    (found : world.loop.lookupNode fd = some node) (internal : node.internal = true) :
    ∃ co, world.loop.coState co = some .suspend ∧
      Moves world (world.handleNode node) co .ready := by
  have nodes := settled.sources.nodes fd node found
  have event {eventFd number : Nat} {co : Co} {timer : Option Nat} :
      Moves world (world.coEventHandle eventFd co number timer) co .ready := by
    rw [coEventHandle_eq]
    exact ((Prepared.stopTimer timer).unregisterNode eventFd).setReady_moves co number
  cases node with
  | other => simp [ScNode.internal] at internal
  | coEvent eventFd co number timer =>
      exact ⟨co, (nodes co number _ rfl).1, event⟩
  | coTimeout timerFd eventFd co number =>
      exact ⟨co, (nodes co number _ rfl).1, event⟩
  | coTimer timerFd co number =>
      exact ⟨co, (nodes co number (.byTimer timerFd) rfl).1,
        (Prepared.stopTimer (some timerFd)).setReady_moves co number⟩

theorem handleNode_currentCo {node : ScNode Co} :
    (world.handleNode node).loop.currentCo = world.loop.currentCo := by
  cases node with
  | other => rfl
  | coTimer => rfl
  | coEvent fd co number timer => cases timer <;> rfl
  | coTimeout => rfl

theorem NoHandler.moves {state : AcrState} (noHandler : NoHandler world.loop)
    (moves : Moves world next co state)
    (plain : ∀ node, world.loop.task co = some node → node.internal = false) :
    NoHandler next.loop := by
  intro handler node task internal
  rw [moves.1] at task
  have apart : handler ≠ co := by
    rintro rfl
    simp [plain node task] at internal
  rw [moves.2, Function.update_of_ne apart]
  exact noHandler handler node task internal

theorem addCo_worldInvariant (invariant : WorldInvariant world) (acting : world.loop.Acting)
    (noHandler : NoHandler world.loop) (unborn : world.loop.coState co = none) :
    WorldInvariant { world with loop := world.loop.addCo co none } := by
  have calm : world.loop.phase ≠ .polling ∧
      ∀ rest, world.loop.phase ≠ .resuming rest false := by
    rcases invariant.loop.acting_phase acting with phase | ⟨rest, phase⟩ <;> simp [phase]
  refine Settled.worldInvariant ⟨addCo_loopInvariant invariant.loop unborn calm, ?_, ?_⟩ ?_
  · refine invariant.sources.frame (fun _ _ found => .inl found) (fun _ => rfl)
      fun which yieldNo call inside => ?_
    have apart : which ≠ co := fun same => by simp [SuspendedIn, same, unborn] at inside
    simpa [SuspendedIn, addCo, apart] using inside
  · refine invariant.logs.frame rfl rfl rfl rfl (fun which gone => ?_) (fun which ready => ?_)
      fun which suspended => ?_ <;> by_cases same : which = co <;> simp_all [addCo]
  · intro handler node task internal
    by_cases same : handler = co
    · simp [addCo, same] at task
    · have known : world.loop.task handler = some node := by simpa [addCo, same] using task
      simpa [addCo, same] using noHandler handler node known internal

theorem testHolder_worldInvariant [DecidableEq Mutex] {mutex : Mutex} (settled : Settled world)
    (noHandler : NoHandler world.loop) (current : world.loop.currentCo = some co)
    (plain : ∀ node, world.loop.task co = some node → node.internal = false) :
    WorldInvariant (world.testHolder co mutex) := by
  refine (testHolder_settled settled current).worldInvariant ?_
  have moved : (world.testHolder co mutex).loop = world.loop ∨
      Moves world (world.testHolder co mutex) co .suspend := testHolder_moves
  rcases moved with same | moves
  · rw [same]
    exact noHandler
  · exact noHandler.moves moves plain

theorem handleEvent_worldInvariant {node : ScNode Co} (invariant : WorldInvariant world)
    (current : world.loop.currentCo = some co) (task : world.loop.task co = some node)
    (internal : node.internal = true) :
    WorldInvariant { world.handleNode node with
      loop := (world.handleNode node).loop.leaveTurn co .dead } := by
  have settled := invariant.settled
  have runs := invariant.loop.current co current
  obtain ⟨fd, found⟩ := invariant.handlers.armed co node task internal (.inr runs)
  obtain ⟨woken, suspended, sameTask, coState⟩ := handleNode_moves settled found internal
  have handled := handleNode_settled settled (.inr (by simp [current])) found internal
  have still : (world.handleNode node).loop.currentCo = some co := by
    rw [handleNode_currentCo]
    exact current
  refine (finish_settled handled still).worldInvariant fun handler known again inside => ?_
  by_cases same : handler = co
  · exact .inr (by simp [leaveTurn, setCoState, same])
  · have task' : world.loop.task handler = some known := by
      simpa [leaveTurn, setCoState, sameTask] using again
    have apart : handler ≠ woken := by
      rintro rfl
      exact invariant.handlers.awake handler known task' inside suspended
    have state : (world.handleNode node).loop.coState handler = world.loop.coState handler := by
      rw [coState, Function.update_of_ne apart]
    simp only [leaveTurn, setCoState, Function.update_of_ne same, state]
    cases before : world.loop.coState handler with
    | none => exact .inl rfl
    | some state' =>
        cases state' with
        | dead => exact .inr rfl
        | suspend => exact absurd before (invariant.handlers.awake handler known task' inside)
        | running =>
            have now := invariant.loop.running handler before
            exact absurd (Option.some.inj (now.symm.trans current)) same
        | ready =>
            have idle := (invariant.handlers.due handler known task' inside before).idle
            simp [current] at idle

theorem step_worldInvariant [DecidableEq Mutex] {label : WorldLabel Co Mutex}
    (invariant : WorldInvariant world) (taken : step world label = some next) :
    WorldInvariant next := by
  have settled := invariant.settled
  have calm {co : Co} (program : world.program = some co) : NoHandler world.loop :=
    invariant.noHandler (.inr ⟨co, program_eq_some program⟩)
  cases step_effect taken with
  | turn other moved => exact turn_worldInvariant other invariant moved
  | resumeNext moved current => exact resume_worldInvariant invariant moved current
  | handleEvent current task internal =>
      exact handleEvent_worldInvariant invariant current task internal
  | addCo acting unborn =>
      obtain ⟨acts, programs⟩ := acting_of_program acting
      exact addCo_worldInvariant invariant acts (invariant.noHandler programs) unborn
  | registerOther acting =>
      exact registerOther_worldInvariant invariant
        (invariant.noHandler (acting_of_program acting).2)
  | unregisterOther acting _ =>
      exact unregisterOther_worldInvariant invariant
        (invariant.noHandler (acting_of_program acting).2)
  | retry current _ executes =>
      have plain := plain_of_executesProgram executes
      exact testHolder_worldInvariant (settled.with_rest _ _)
        (invariant.noHandler (.inr ⟨_, current, plain⟩)) current plain
  | yieldByFd program free timers =>
      obtain ⟨current, plain⟩ := program_eq_some program
      exact (yieldByFd_settled settled current free timers).worldInvariant
        ((calm program).moves yieldByFd_moves plain)
  | yieldByTimer program free =>
      obtain ⟨current, plain⟩ := program_eq_some program
      exact (yieldByTimer_settled settled current free).worldInvariant
        ((calm program).moves yieldByTimer_moves plain)
  | lock program =>
      obtain ⟨current, plain⟩ := program_eq_some program
      unfold CoWorld.lock
      split
      · exact testHolder_worldInvariant settled (calm program) current plain
      · exact (setMutex_settled settled (by simp)).worldInvariant (calm program)
  | unlock program =>
      have current := (program_eq_some program).1
      refine (unlock_settled settled (.inr (by simp [current]))).worldInvariant ?_
      rcases unlock_moves settled with same | ⟨woken, suspended, moves⟩
      · rw [same]
        exact calm program
      · exact (calm program).moves moves ((calm program).plain_of_suspended suspended)
  | finish program =>
      obtain ⟨current, plain⟩ := program_eq_some program
      exact (finish_settled settled current).worldInvariant
        ((calm program).moves finish_moves plain)

theorem reachable_worldInvariant [DecidableEq Mutex] (reached : Reachable step start world) :
    WorldInvariant world :=
  invariant_of_reachable start_worldInvariant
    (fun _ _ _ invariant taken => step_worldInvariant invariant taken) reached

theorem Moves.dead {state : AcrState} (moves : Moves world next co state)
    (alive : world.loop.coState co ≠ some .dead) {which : Co}
    (dead : world.loop.coState which = some .dead) : next.loop.coState which = some .dead := by
  have apart : which ≠ co := fun same => alive (same ▸ dead)
  rw [moves.2, Function.update_of_ne apart, dead]

theorem testHolder_dead [DecidableEq Mutex] {mutex : Mutex}
    (alive : world.loop.coState co ≠ some .dead) {which : Co}
    (dead : world.loop.coState which = some .dead) :
    (world.testHolder co mutex).loop.coState which = some .dead := by
  have moved : (world.testHolder co mutex).loop = world.loop ∨
      Moves world (world.testHolder co mutex) co .suspend := testHolder_moves
  rcases moved with same | moves
  · rw [same]
    exact dead
  · exact moves.dead alive dead

theorem step_dead [DecidableEq Mutex] {label : WorldLabel Co Mutex} {which : Co}
    (invariant : WorldInvariant world) (taken : step world label = some next)
    (dead : world.loop.coState which = some .dead) : next.loop.coState which = some .dead := by
  have alive {co : Co} (current : world.loop.currentCo = some co) :
      world.loop.coState co ≠ some .dead := by
    simp [invariant.loop.current co current]
  cases step_effect taken with
  | turn other moved =>
      rcases stepLoop_cases other moved with ⟨_, same | ⟨fd, node, co, _, _, unborn, rfl⟩⟩
      · rw [same.coState]
        exact dead
      · have apart : which ≠ co := fun same => by simp [same, unborn] at dead
        simpa [addCo, apart] using dead
  | resumeNext moved current =>
      obtain ⟨resumed, rest, still, phase, _, now, rfl⟩ := stepLoop_resumeNext moved
      have ready := (invariant.loop.snapshot _ _ phase).2 resumed (by simp)
      have apart : which ≠ resumed := fun same => by simp [same, ready] at dead
      simpa [resume, resumeCo, setCoState, apart] using dead
  | @handleEvent co node current task internal =>
      have runs := invariant.loop.current co current
      obtain ⟨fd, found⟩ := invariant.handlers.armed co node task internal (.inr runs)
      obtain ⟨woken, suspended, moves⟩ := handleNode_moves invariant.settled found internal
      have apart : which ≠ co := fun same => alive current (same ▸ dead)
      simpa [leaveTurn, setCoState, apart] using moves.dead (by simp [suspended]) dead
  | @addCo co _ unborn =>
      have apart : which ≠ co := fun same => by simp [same, unborn] at dead
      simpa [EventLoop.addCo, apart] using dead
  | @registerOther fd _ =>
      obtain ⟨_, _, same⟩ := (Prepared.refl world).registerNode fd .other
      rw [same]
      exact dead
  | unregisterOther => exact dead
  | @retry co mutex current =>
      have before : ({ world with retrying := Function.update world.retrying co none } :
          CoWorld Co Mutex).loop.coState co ≠ some .dead := alive current
      exact testHolder_dead before dead
  | yieldByFd program => exact yieldByFd_moves.dead (alive (program_eq_some program).1) dead
  | yieldByTimer program => exact yieldByTimer_moves.dead (alive (program_eq_some program).1) dead
  | lock program =>
      unfold CoWorld.lock
      split
      · exact testHolder_dead (alive (program_eq_some program).1) dead
      · exact dead
  | unlock =>
      rcases unlock_moves invariant.settled with same | ⟨woken, suspended, moves⟩
      · rw [same]
        exact dead
      · exact moves.dead (by simp [suspended]) dead
  | finish program => exact finish_moves.dead (alive (program_eq_some program).1) dead

/-- Every wake finds its coroutine suspended in the call the source was made for, no call is
woken twice, every resume finds a READY coroutine and ends another yield, and a DEAD
coroutine stays DEAD. -/
theorem reachable_wokenOnce [DecidableEq Mutex] (world : CoWorld Co Mutex)
    (reached : Reachable step start world) :
    (∀ wake ∈ world.wakes, wake.stateThen = some .suspend ∧
      wake.yieldThen = some wake.yieldNo) ∧
    (world.wakes.map Wake.yieldNo).Nodup ∧
    (∀ resume ∈ world.resumes, resume.stateThen = some .ready) ∧
    (world.resumes.map fun resume => (resume.co, resume.yieldThen)).Nodup ∧
    ∀ co, world.loop.coState co = some .dead → ∀ label next, step world label = some next →
      next.loop.coState co = some .dead := by
  have invariant := reachable_worldInvariant reached
  have logs := invariant.logs
  exact ⟨logs.woken, logs.wokenOnce, logs.resumed, logs.resumedOnce,
    fun _ dead _ _ taken => step_dead invariant taken dead⟩

end Steps

def timedOut : List (WorldLabel Nat Unit) :=
  [.addCo 0, .registerOther 3, .turn .runEventLoop, .turn .enter, .turn .collect, .resumeNext,
    .yieldByFd 5 (some 6), .turn .sweep, .turn .collect, .turn .sweep,
    .turn (.epollWait (some (6, 1))), .turn .enter, .turn .collect, .resumeNext, .handleEvent,
    .turn .sweep, .turn .collect, .resumeNext, .yieldByTimer 7, .turn .sweep, .turn .collect,
    .turn .sweep, .turn (.epollWait (some (7, 2))), .turn .enter, .turn .collect, .resumeNext,
    .handleEvent]

theorem reachable_wokenOnce_timedOut :
    ∃ world, exec step (start : CoWorld Nat Unit) timedOut = some world ∧
      world.wakes.map (fun wake => (wake.co, wake.yieldNo)) = [(0, 1), (0, 0)] ∧
      world.yieldResult 0 = false ∧ world.loop.fdToNode.map Prod.fst = [3] ∧
      ∀ wake ∈ world.wakes, wake.stateThen = some .suspend ∧
        wake.yieldThen = some wake.yieldNo := by
  obtain ⟨world, run⟩ := Option.isSome_iff_exists.mp
    (show (exec step (start : CoWorld Nat Unit) timedOut).isSome by rfl)
  have seen : (exec step (start : CoWorld Nat Unit) timedOut).map (fun world =>
      (world.wakes.map (fun wake => (wake.co, wake.yieldNo)), world.yieldResult 0,
        world.loop.fdToNode.map Prod.fst)) = some ([(0, 1), (0, 0)], false, [3]) := by rfl
  simp only [run, Option.map_some, Option.some.injEq, Prod.mk.injEq] at seen
  exact ⟨world, run, seen.1, seen.2.1, seen.2.2,
    (reachable_wokenOnce world ⟨timedOut, run⟩).1⟩

end AutoDrop.CoWorld
