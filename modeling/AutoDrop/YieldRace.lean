import AutoDrop.YieldWait

/-!
The race of a descriptor and a timeout in `yield_by_fd`. From the dispatch of one of the two
nodes on the loop has no choice until the coroutine is back in its call.
-/

namespace AutoDrop.CoWorld

open LabelledRun EventLoop

variable {Co Mutex : Type*} [DecidableEq Co]
  {world next final : CoWorld Co Mutex} {co handler : Co} {yieldNo fd timerFd event : Nat}
  {node : ScNode Co} {call : YieldCall Mutex}

section Definitions

/-- The turn of the handler and the way to the turn of the coroutine that it woke. -/
def raceEnd : List (WorldLabel Co Mutex) :=
  [.turn .enter, .turn .collect, .resumeNext, .handleEvent, .turn .sweep, .turn .collect,
    .resumeNext]

/-- The coroutine is back in its call, and only its own registrations are gone. -/
structure Returned (world final : CoWorld Co Mutex) (node : ScNode Co) (co : Co) (yieldNo : Nat)
    (handler : Co) : Prop where
  running : final.loop.currentCo = some co
  result : final.yieldResult co = node.result (world.yieldResult co)
  resumes : final.resumes =
    ⟨co, some .ready, some yieldNo⟩ :: ⟨handler, some .ready, none⟩ :: world.resumes
  registrations : ∀ key, final.loop.lookupNode key =
    if key ∈ node.cleared then none else world.loop.lookupNode key

def handlerTurn (world : CoWorld Co Mutex) (handler : Co) (node : ScNode Co) : CoWorld Co Mutex :=
  let added := { world.loop.addCo handler (some node) with phase := .resuming [handler] true }
  { world with loop := added }.resume ({ added with phase := .resuming [] true }.resumeCo handler)
    handler

/-- The world behind the turn of the handler, with the handler erased. -/
def handlerGone (world : CoWorld Co Mutex) (handler : Co) (node : ScNode Co) : CoWorld Co Mutex :=
  let handled := (world.handlerTurn handler node).handleNode node
  { handled with
    loop := { (handled.loop.leaveTurn handler .dead).eraseDead with phase := .collecting } }

def backInCall (world : CoWorld Co Mutex) (handler : Co) (node : ScNode Co) (co : Co) :
    CoWorld Co Mutex :=
  let gone := world.handlerGone handler node
  { gone with loop := { gone.loop with phase := .resuming [co] true } }.resume
    ({ gone.loop with phase := .resuming [] true }.resumeCo co) co

end Definitions

section Resumptions

def resumptions (world : CoWorld Co Mutex) (co : Co) (yieldNo : Nat) : Nat :=
  (world.resumes.map fun resume => (resume.co, resume.yieldThen)).count (co, some yieldNo)

theorem WorldInvariant.resumed (invariant : WorldInvariant world) {resume : Resume Co}
    (member : resume ∈ world.resumes) (ended : resume.yieldThen = some yieldNo) :
    world.resumptions resume.co yieldNo = 1 ∧ ∀ key node, world.loop.lookupNode key = some node →
      node.source ≠ some (co, yieldNo, call) := by
  refine ⟨?_, fun key node found source => ?_⟩
  · have inside : (resume.co, some yieldNo) ∈
        world.resumes.map fun resume => (resume.co, resume.yieldThen) :=
      List.mem_map.mpr ⟨resume, member, by rw [ended]⟩
    exact (List.Nodup.count invariant.logs.resumedOnce).trans (if_pos inside)
  · have asleep := invariant.sources.nodes key node found co yieldNo call source
    exact (invariant.logs.resumedPast resume member yieldNo ended).2 co call asleep.2

theorem Waiting.resumptions (invariant : WorldInvariant world)
    (waiting : Waiting world co yieldNo fd timerFd) : world.resumptions co yieldNo = 0 := by
  refine List.count_eq_zero_of_not_mem fun member => ?_
  obtain ⟨resume, logged, same⟩ := List.mem_map.mp member
  simp only [Prod.mk.injEq] at same
  exact (invariant.logs.resumedPast resume logged yieldNo same.2).2 co _ waiting.asleep.2

end Resumptions

section HandlerGone

theorem coState_handlerGone (which : Co) : (world.handlerGone handler node).loop.coState which =
    if which = handler then some .dead
    else if node.owner = some which then some .ready else world.loop.coState which := by
  simp only [handlerGone, eraseDead, leaveTurn, setCoState, Function.update_apply,
    coState_handleNode]
  by_cases own : which = handler
  · simp [own]
  · simp [own, handlerTurn, resume, resumeCo, addCo, setCoState]

theorem lookupNode_handlerGone (key : Nat) :
    (world.handlerGone handler node).loop.lookupNode key =
      if key ∈ node.cleared then none else world.loop.lookupNode key :=
  lookupNode_handleNode node

theorem yielding_handlerGone {which : Co} (apart : which ≠ handler) :
    (world.handlerGone handler node).yielding which = world.yielding which := by
  simp only [handlerGone, yielding_handleNode]
  simp [handlerTurn, resume, apart]

theorem resumes_handlerGone (unyielding : world.yielding handler = none) :
    (world.handlerGone handler node).resumes =
      ⟨handler, some .ready, none⟩ :: world.resumes := by
  obtain ⟨_, _, _, _, same⟩ := handleNode_eq (world.handlerTurn handler node) node
  simp only [handlerGone, same]
  simp [handlerTurn, resume, addCo, unyielding]

theorem coRoutines_handlerGone : (world.handlerGone handler node).loop.coRoutines =
    (world.loop.coRoutines ++ [handler]).filter fun which =>
      (world.handlerGone handler node).loop.coState which ≠ some .dead := by
  obtain ⟨_, _, _, _, same⟩ := handleNode_eq (world.handlerTurn handler node) node
  simp only [handlerGone, same]
  rfl

theorem readyCo_handlerGone (invariant : WorldInvariant world) (listed : world.loop.Listed)
    (asleep : SuspendedIn world co yieldNo call) (owner : node.owner = some co)
    (dispatches : Dispatches world next event handler node) :
    (world.handlerGone handler node).loop.readyCo = [co] := by
  obtain ⟨polling, found, unborn, -⟩ := dispatches
  have apart : co ≠ handler := fun same => by simp [← same, asleep.1] at unborn
  have absent : handler ∉ world.loop.coRoutines := fun member =>
    invariant.loop.listed handler member unborn
  have ready : (world.handlerGone handler node).loop.coState co = some .ready := by
    simp [coState_handlerGone, apart, owner]
  refine readyCo_eq_singleton ?_ ?_ ready fun other member awake => ?_
  · have distinct : (world.loop.coRoutines ++ [handler]).Nodup := by
      simpa [List.nodup_append] using
        ⟨invariant.loop.nodup, fun which member same => absent (same ▸ member)⟩
    rw [coRoutines_handlerGone]
    exact distinct.filter _
  · rw [coRoutines_handlerGone]
    have known := listed co (by simp [asleep.1]) (by simp [asleep.1])
    simp [known, ready]
  · rw [coRoutines_handlerGone] at member
    have before := (List.mem_filter.mp member).1
    by_contra different
    have others : other ≠ handler := fun same => by simp [coState_handlerGone, same] at awake
    have slept := invariant.loop.asleep polling other (by simpa [others] using before)
    simp [coState_handlerGone, others, owner, Ne.symm different, slept] at awake

end HandlerGone

variable [DecidableEq Mutex] {label : WorldLabel Co Mutex}

section Forced

/-- While no coroutine runs, only `runEventLoop` acts. -/
theorem turn_of_idle (idle : world.loop.currentCo = none) (inside : world.loop.phase ≠ .outside)
    (taken : step world label ≠ none) :
    (∃ turn, label = .turn turn ∧ turn ≠ .resumeNext ∧ world.loop.stepLoop turn ≠ none) ∨
      label = .resumeNext ∧ world.loop.stepLoop .resumeNext ≠ none := by
  have none : world.program = none := by simp [program, idle]
  cases label with
  | turn turn =>
      by_cases other : turn = .resumeNext
      · simp [step, other] at taken
      · rw [step_turn other] at taken
        exact .inl ⟨turn, rfl, other, by simpa using taken⟩
  | resumeNext =>
      refine .inr ⟨rfl, fun stuck => ?_⟩
      simp [step, stuck] at taken
  | handleEvent | retry => simp [step, idle] at taken
  | addCo | registerOther | unregisterOther => simp [step, inside, none] at taken
  | yieldByFd | yieldByTimer | lock | unlock | finish => simp [step, none] at taken

theorem forced_turn {turn : LoopLabel Co (ScNode Co)} {loop : EventLoop Co (ScNode Co)}
    (idle : world.loop.currentCo = none) (inside : world.loop.phase ≠ .outside)
    (other : turn ≠ .resumeNext) (moved : world.loop.stepLoop turn = some loop)
    (only : ∀ label, world.loop.stepLoop label ≠ none → label = turn)
    {rest : List (WorldLabel Co Mutex)} (onward : Forced step { world with loop } rest final) :
    Forced step world (.turn turn :: rest) final := by
  refine .cons ?_ ?_ onward
  · intro label taken
    rcases turn_of_idle idle inside taken with ⟨label, rfl, -, moves⟩ | ⟨rfl, moves⟩
    · rw [only label moves]
    · exact absurd (only _ moves).symm other
  · rw [step_turn other, moved]
    rfl

theorem forced_enter (idle : world.loop.currentCo = none) (phase : world.loop.phase = .entering)
    (registered : world.loop.fdToNode ≠ []) {rest : List (WorldLabel Co Mutex)}
    (onward : Forced step { world with loop := { world.loop with phase := .collecting } } rest
      final) : Forced step world (.turn .enter :: rest) final := by
  refine forced_turn idle (by simp [phase]) ?_ ?_ ?_ onward
  · simp
  · simp [stepLoop, phase, registered]
  · intro label moves
    cases label <;> simp_all [stepLoop]

theorem forced_collect (idle : world.loop.currentCo = none)
    (phase : world.loop.phase = .collecting) (ready : world.loop.readyCo = [co])
    {rest : List (WorldLabel Co Mutex)}
    (onward : Forced step { world with loop := { world.loop with phase := .resuming [co] true } }
      rest final) : Forced step world (.turn .collect :: rest) final := by
  refine forced_turn idle (by simp [phase]) ?_ ?_ ?_ onward
  · simp
  · simp [stepLoop, phase, ready]
  · intro label moves
    cases label <;> simp_all [stepLoop]

theorem forced_resume (idle : world.loop.currentCo = none)
    (phase : world.loop.phase = .resuming [co] true) {rest : List (WorldLabel Co Mutex)}
    (onward : Forced step
      (world.resume ({ world.loop with phase := .resuming [] true }.resumeCo co) co) rest final) :
    Forced step world (.resumeNext :: rest) final := by
  refine .cons (fun label taken => ?_) ?_ onward
  · rcases turn_of_idle idle (by simp [phase]) taken with ⟨turn, rfl, _, moves⟩ | ⟨rfl, _⟩
    · cases turn <;> simp_all [stepLoop]
    · rfl
  · simp [step, stepLoop, phase, idle, resumeCo]

theorem forced_sweep (idle : world.loop.currentCo = none)
    (phase : world.loop.phase = .resuming [] true) {rest : List (WorldLabel Co Mutex)}
    (onward : Forced step { world with loop := { world.loop.eraseDead with phase := .collecting } }
      rest final) : Forced step world (.turn .sweep :: rest) final := by
  refine forced_turn idle (by simp [phase]) ?_ ?_ ?_ onward
  · simp
  · simp [stepLoop, phase, idle, afterSweep]
  · intro label moves
    cases label <;> simp_all [stepLoop]

theorem forced_handleEvent (current : world.loop.currentCo = some handler)
    (task : world.loop.task handler = some node) (internal : node.internal = true)
    (phase : world.loop.phase = .resuming [] true) {rest : List (WorldLabel Co Mutex)}
    (onward : Forced step { world.handleNode node with
      loop := (world.handleNode node).loop.leaveTurn handler .dead } rest final) :
    Forced step world (.handleEvent :: rest) final := by
  have notProgram : world.executesProgram handler = false := by
    simp [executesProgram, task, internal]
  have none : world.program = none := by simp [program, current, notProgram]
  refine .cons (fun label taken => ?_) ?_ onward
  · cases label with
    | turn turn =>
        cases turn <;> simp_all [step, stepLoop]
    | resumeNext => simp [step, stepLoop, phase] at taken
    | handleEvent => rfl
    | retry => simp [step, current, notProgram] at taken
    | addCo | registerOther | unregisterOther => simp [step, phase, none] at taken
    | yieldByFd | yieldByTimer | lock | unlock | finish => simp [step, none] at taken
  · simp [step, current, task, internal]

end Forced

section Resolution

theorem dispatched_forced (invariant : WorldInvariant world) (internal : node.internal = true)
    (dispatches : Dispatches world next event handler node)
    {rest : List (WorldLabel Co Mutex)}
    (onward : Forced step (world.handlerGone handler node) rest final) :
    Forced step next (.turn .enter :: .turn .collect :: .resumeNext :: .handleEvent ::
      .turn .sweep :: rest) final := by
  obtain ⟨polling, found, unborn, rfl⟩ := dispatches
  have idle := invariant.loop.currentCo_eq_none (by simp [polling])
  have imminent : Imminent { world.loop.addCo handler (some node) with phase := .entering }
      handler := imminent_dispatch invariant.loop polling found
  have taken : world.loop.stepLoop (.epollWait (some (event, handler))) =
      some { world.loop.addCo handler (some node) with phase := .entering } := by
    simp [stepLoop, polling, unborn, dispatch, found]
  have inside := stepLoop_loopInvariant invariant.loop taken
  have ready : (world.loop.addCo handler (some node)).readyCo = [handler] :=
    imminent.readyCo inside
  have turned : (world.handlerTurn handler node).loop.task handler = some node := by
    simp [handlerTurn, resume, resumeCo, addCo, setCoState]
  have phase : ((world.handlerTurn handler node).handleNode node).loop.phase =
      .resuming [] true := by
    obtain ⟨_, _, _, _, same⟩ := handleNode_eq (world.handlerTurn handler node) node
    rw [same]
    rfl
  apply forced_enter
  · exact idle
  · rfl
  · exact imminent.registered
  apply forced_collect
  · exact idle
  · rfl
  · exact ready
  apply forced_resume
  · exact idle
  · rfl
  apply forced_handleEvent
  · rfl
  · exact turned
  · exact internal
  · rfl
  apply forced_sweep
  · rfl
  · exact phase
  exact onward

/-- From the dispatch on everything is forced until the coroutine is back in its call. -/
theorem dispatched_returns (invariant : WorldInvariant world) (listed : world.loop.Listed)
    (dispatches : Dispatches world next event handler node)
    (source : node.source = some (co, yieldNo, call)) :
    ∃ final, Forced step next raceEnd final ∧ Returned world final node co yieldNo handler := by
  obtain ⟨internal, owner⟩ := ScNode.source_eq_some source
  have asleep := invariant.sources.nodes event node dispatches.found co yieldNo call source
  have apart : co ≠ handler := by
    rintro rfl
    have state := asleep.1
    simp [dispatches.unborn] at state
  have unyielding := invariant.logs.unborn handler dispatches.unborn
  have ready := readyCo_handlerGone invariant listed asleep owner dispatches
  refine ⟨world.backInCall handler node co, dispatched_forced invariant internal dispatches ?_, ?_⟩
  · apply forced_collect
    · rfl
    · rfl
    · exact ready
    apply forced_resume
    · rfl
    · rfl
    rfl
  · refine ⟨rfl, ?_, ?_, fun key => lookupNode_handlerGone key⟩
    · exact yieldResult_handleNode owner
    · simp only [backInCall, resume, resumes_handlerGone unyielding, coState_handlerGone, apart,
        owner, yielding_handlerGone apart, asleep.2]
      rfl

end Resolution

section Race

theorem step_resumes (taken : step world label = some next) (resume : Resume Co)
    (member : resume ∈ world.resumes) : resume ∈ next.resumes := by
  cases step_effect taken with
  | turn | addCo | registerOther | unregisterOther | finish => exact member
  | resumeNext => exact List.mem_cons_of_mem _ member
  | @handleEvent _ node =>
      obtain ⟨_, _, _, _, same⟩ := handleNode_eq world node
      simpa only [same] using member
  | retry =>
      unfold testHolder
      split <;> exact member
  | @yieldByFd co fd timer =>
      cases timer <;> exact member
  | yieldByTimer => exact member
  | lock =>
      simp only [CoWorld.lock, testHolder]
      split
      · split <;> exact member
      · exact member
  | unlock =>
      simp only [CoWorld.unlock]
      split <;> exact member

theorem reachable_resumes (reached : Reachable step world next) (resume : Resume Co)
    (member : resume ∈ world.resumes) : resume ∈ next.resumes := by
  have kept : ∀ (state : CoWorld Co Mutex) label after, resume ∈ state.resumes →
      step state label = some after → resume ∈ after.resumes :=
    fun _ _ _ logged taken => step_resumes taken resume logged
  refine invariant_of_reachable ?_ kept reached
  exact member

/-- The dispatch of an event decides the call: nothing but `raceEnd` can follow it, and the
coroutine finds the result of that event, both of its nodes gone and all others in place. -/
structure Resolves (poll dispatched final : CoWorld Co Mutex) (co : Co)
    (yieldNo fd timerFd event : Nat) : Prop where
  ofCall : event = fd ∨ event = timerFd
  dispatch : ∃ handler node, Dispatches poll dispatched event handler node
  forced : Forced step dispatched raceEnd final
  running : final.loop.currentCo = some co
  result : final.yieldResult co = decide (event = fd)
  resumed : ⟨co, some .ready, some yieldNo⟩ ∈ final.resumes
  registrations : ∀ key, final.loop.lookupNode key =
    if key = fd ∨ key = timerFd then none else poll.loop.lookupNode key

theorem Waiting.resolves (invariant : WorldInvariant world) (listed : world.loop.Listed)
    (waiting : Waiting world co yieldNo fd timerFd) (ofCall : event = fd ∨ event = timerFd)
    (dispatches : Dispatches world next event handler node) :
    ∃ final, Resolves world next final co yieldNo fd timerFd event := by
  have apart : timerFd ≠ fd := by
    rintro rfl
    have same := waiting.event.symm.trans waiting.timeout
    simp at same
  rcases ofCall with rfl | rfl
  · obtain rfl := Option.some.inj (dispatches.found.symm.trans waiting.event)
    obtain ⟨final, forced, returned⟩ := dispatched_returns invariant listed dispatches
      (rfl : ScNode.source _ = some (co, yieldNo, (.byFd event (some timerFd) : YieldCall Mutex)))
    refine ⟨final, .inl rfl, ⟨handler, _, dispatches⟩, forced, returned.running, ?_, ?_, ?_⟩
    · rw [returned.result]
      simp [ScNode.result]
    · simp [returned.resumes]
    · simpa [ScNode.cleared] using returned.registrations
  · obtain rfl := Option.some.inj (dispatches.found.symm.trans waiting.timeout)
    obtain ⟨final, forced, returned⟩ := dispatched_returns invariant listed dispatches
      (rfl : ScNode.source _ = some (co, yieldNo, (.byFd fd (some event) : YieldCall Mutex)))
    refine ⟨final, .inr rfl, ⟨handler, _, dispatches⟩, forced, returned.running, ?_, ?_, ?_⟩
    · rw [returned.result]
      simp [ScNode.result, apart]
    · simp [returned.resumes]
    · simpa [ScNode.cleared, or_comm] using returned.registrations

/-- However the descriptor and the timer race, the call waits for its first dispatched event,
and this one decides it. -/
theorem reachable_race (world yielded : CoWorld Co Mutex) (co : Co) (fd timerFd : Nat)
    (reached : Reachable step start world) (program : world.program = some co)
    (yields : step world (.yieldByFd fd (some timerFd)) = some yielded) :
    (Waiting yielded co world.yieldCount fd timerFd ∧ ∀ key, key ≠ fd → key ≠ timerFd →
      yielded.loop.lookupNode key = world.loop.lookupNode key) ∧
    ∀ labels later, exec step yielded labels = some later →
      (Waiting later co world.yieldCount fd timerFd ∧
        later.resumptions co world.yieldCount = 0) ∨
      ∃ before label rest poll dispatched final event, labels = before ++ label :: rest ∧
        exec step yielded before = some poll ∧ Waiting poll co world.yieldCount fd timerFd ∧
        step poll label = some dispatched ∧
        Resolves poll dispatched final co world.yieldCount fd timerFd event ∧
        (rest <+: raceEnd ∨ raceEnd <+: rest) ∧
        (raceEnd <+: rest → later.resumptions co world.yieldCount = 1 ∧
          ∀ key node, later.loop.lookupNode key = some node →
            node.source ≠ some (co, world.yieldCount,
              (.byFd fd (some timerFd) : YieldCall Mutex))) := by
  obtain ⟨waiting, others⟩ := yieldByFd_waiting (reachable_worldInvariant reached) program yields
  refine ⟨⟨waiting, others⟩, fun labels later run => ?_⟩
  have stays : ∀ (state : CoWorld Co Mutex) label next,
      Reachable step start state ∧ Waiting state co world.yieldCount fd timerFd →
      step state label = some next →
      (Reachable step start next ∧ Waiting next co world.yieldCount fd timerFd) ∨
        ∃ event handler node, (event = fd ∨ event = timerFd) ∧
          Dispatches state next event handler node := by
    rintro state label next ⟨reached, waiting⟩ taken
    rcases waiting.step (reachable_worldInvariant reached) (reachable_ownCall reached) taken with
      still | left
    · exact .inl ⟨reached.tail taken, still⟩
    · exact .inr left
  rcases exec_until stays ⟨reached.tail yields, waiting⟩ run with
    ⟨there, still⟩ | ⟨before, label, rest, poll, dispatched, split, arrived, ⟨there, still⟩, taken,
      ⟨event, handler, node, ofCall, dispatches⟩, onward⟩
  · exact .inl ⟨still, still.resumptions (reachable_worldInvariant there)⟩
  · obtain ⟨final, resolves⟩ := still.resolves (reachable_worldInvariant there)
      (reachable_listed there) ofCall dispatches
    refine .inr ⟨before, label, rest, poll, dispatched, final, event, split, arrived, still, taken,
      resolves, resolves.forced.comparable onward, ?_⟩
    rintro ⟨after, rfl⟩
    rw [exec_append, resolves.forced.runs, Option.bind_some] at onward
    have ended := (there.tail taken).trans ⟨raceEnd, resolves.forced.runs⟩
    have logged := reachable_resumes ⟨after, onward⟩ _ resolves.resumed
    exact (reachable_worldInvariant (ended.trans ⟨after, onward⟩)).resumed logged rfl

end Race

def beforeRace : List (WorldLabel Nat Unit) :=
  [.addCo 0, .registerOther 3, .turn .runEventLoop, .turn .enter, .turn .collect, .resumeNext]

/-- The timer is reported while the descriptor is readable too. -/
def timerFirst : List (WorldLabel Nat Unit) :=
  [.turn .sweep, .turn .collect, .turn .sweep, .turn (.epollWait (some (6, 1)))] ++ raceEnd

theorem reachable_race_timerFirst :
    ∃ world yielded later, exec step (start : CoWorld Nat Unit) beforeRace = some world ∧
      step world (.yieldByFd 5 (some 6)) = some yielded ∧
      exec step yielded timerFirst = some later ∧ later.yieldResult 0 = false ∧
      later.resumptions 0 0 = 1 ∧ later.loop.fdToNode.map Prod.fst = [3] ∧
      Waiting yielded 0 world.yieldCount 5 6 := by
  obtain ⟨world, run⟩ := Option.isSome_iff_exists.mp
    (show (exec step (start : CoWorld Nat Unit) beforeRace).isSome by rfl)
  have program : (exec step (start : CoWorld Nat Unit) beforeRace).bind program = some 0 := by rfl
  have seen : ((exec step (start : CoWorld Nat Unit) beforeRace).bind fun world =>
      (step world (.yieldByFd 5 (some 6))).bind fun yielded =>
        (exec step yielded timerFirst).map fun later =>
          (later.yieldResult 0, later.resumptions 0 0, later.loop.fdToNode.map Prod.fst)) =
      some (false, 1, [3]) := by rfl
  rw [run, Option.bind_some] at program
  rw [run, Option.bind_some, Option.bind_eq_some_iff] at seen
  obtain ⟨yielded, yields, rest⟩ := seen
  obtain ⟨later, onward, data⟩ := Option.map_eq_some_iff.mp rest
  simp only [Prod.mk.injEq] at data
  exact ⟨world, yielded, later, run, yields, onward, data.1, data.2.1, data.2.2,
    (reachable_race world yielded 0 5 6 ⟨beforeRace, run⟩ program yields).1.1⟩

end AutoDrop.CoWorld
