import AutoDrop.EventLoopQuiet

/-!
The way from `epoll_wait` to the handler: the coroutine that a dispatched event adds is the
only one that is READY, so it is resumed before anything else runs.
-/

namespace AutoDrop.EventLoop

variable {Co Node : Type*} {loop next : EventLoop Co Node} {handler co : Co}

@[simp] theorem coState_registerNode {fd : Nat} {node : Node} :
    (loop.registerNode fd node).coState = loop.coState := by
  unfold registerNode
  split <;> rfl

theorem lookupNode_registerNode_of_some {fd other : Nat} {node found : Node}
    (known : loop.lookupNode other = some found) :
    (loop.registerNode fd node).lookupNode other = some found := by
  cases free : loop.lookupNode fd with
  | none =>
      have apart : other ≠ fd := fun own => by simp [own, free] at known
      rw [lookupNode_registerNode free, if_neg apart, known]
  | some holder => simpa [registerNode, free] using known

theorem lookupNode_registerNode_cases {fd other : Nat} {node found : Node}
    (looks : (loop.registerNode fd node).lookupNode other = some found) :
    loop.lookupNode other = some found ∨
      (loop.lookupNode fd = none ∧ other = fd) ∧ found = node := by
  cases free : loop.lookupNode fd with
  | none =>
      rw [lookupNode_registerNode free] at looks
      split at looks
      · rename_i own
        exact .inr ⟨⟨rfl, own⟩, (Option.some.inj looks).symm⟩
      · exact .inl looks
  | some holder => exact .inl (by simpa [registerNode, free] using looks)

structure Imminent (loop : EventLoop Co Node) (handler : Co) : Prop where
  idle : loop.currentCo = none
  registered : loop.fdToNode ≠ []
  listed : handler ∈ loop.coRoutines
  ready : loop.coState handler = some .ready
  alone : ∀ co ∈ loop.coRoutines, loop.coState co = some .ready → co = handler
  phase : loop.phase = .entering ∨ loop.phase = .collecting ∨
    ∃ still, loop.phase = .resuming [handler] still

theorem Imminent.not_acting (imminent : Imminent loop handler) : ¬loop.Acting := by
  rintro (outside | controlled)
  · have phase := imminent.phase
    simp [outside] at phase
  · exact controlled imminent.idle

theorem readyCo_eq_singleton (distinct : loop.coRoutines.Nodup) (listed : co ∈ loop.coRoutines)
    (ready : loop.coState co = some .ready)
    (alone : ∀ other ∈ loop.coRoutines, loop.coState other = some .ready → other = co) :
    loop.readyCo = [co] := by
  have collected : co ∈ loop.readyCo := List.mem_filter.mpr ⟨listed, by simpa using ready⟩
  have single : ∀ other ∈ loop.readyCo, other = co := by
    intro other member
    obtain ⟨known, state⟩ := List.mem_filter.mp member
    exact alone other known (by simpa using state)
  have nodup : loop.readyCo.Nodup := distinct.filter _
  cases collection : loop.readyCo with
  | nil => simp [collection] at collected
  | cons first rest =>
      rw [collection] at single nodup
      obtain rfl := single first (by simp)
      cases rest with
      | nil => rfl
      | cons second others =>
          have same := single second (by simp)
          simp [same] at nodup

theorem Imminent.readyCo (imminent : Imminent loop handler) (invariant : LoopInvariant loop) :
    loop.readyCo = [handler] :=
  readyCo_eq_singleton invariant.nodup imminent.listed imminent.ready imminent.alone

theorem Imminent.rephase (imminent : Imminent loop handler) {phase : LoopPhase Co}
    (onward : phase = .collecting ∨ ∃ still, phase = .resuming [handler] still) :
    Imminent { loop with phase } handler :=
  ⟨imminent.idle, imminent.registered, imminent.listed, imminent.ready, imminent.alone,
    .inr onward⟩

variable [DecidableEq Co]

/-- Every other coroutine is suspended when an event is dispatched. -/
theorem imminent_dispatch {fd : Nat} {node : Node} (invariant : LoopInvariant loop)
    (polling : loop.phase = .polling) (found : loop.lookupNode fd = some node) :
    Imminent { loop.addCo handler (some node) with phase := .entering } handler := by
  have idle := invariant.currentCo_eq_none (by simp [polling])
  have asleep := invariant.asleep polling
  refine ⟨idle, fun empty => ?_, by simp [addCo], by simp [addCo], fun co listed ready => ?_,
    .inl rfl⟩
  · have entries : loop.fdToNode = [] := empty
    simp [lookupNode, entries] at found
  · by_contra other
    have before : co ∈ loop.coRoutines := by simpa [addCo, other] using listed
    simp [addCo, other, asleep co before] at ready

theorem Imminent.stepLoop {label : LoopLabel Co Node} (imminent : Imminent loop handler)
    (invariant : LoopInvariant loop) (taken : loop.stepLoop label = some next) :
    label ≠ .resumeNext ∧ Imminent next handler ∨
      label = .resumeNext ∧ next.currentCo = some handler := by
  have phase := imminent.phase
  cases label with
  | addCo | setReady | registerNode | unregisterNode | yieldCo | finish =>
      simp [EventLoop.stepLoop] at taken
  | runEventLoop =>
      simp only [EventLoop.stepLoop, Option.ite_none_right_eq_some] at taken
      simp [taken.1] at phase
  | enter =>
      simp only [EventLoop.stepLoop, Option.ite_none_right_eq_some, Option.some.injEq] at taken
      obtain ⟨-, rfl⟩ := taken
      refine .inl ⟨by simp, imminent.rephase (.inl ?_)⟩
      simp [imminent.registered]
  | collect =>
      simp only [EventLoop.stepLoop, Option.ite_none_right_eq_some, Option.some.injEq] at taken
      obtain ⟨-, rfl⟩ := taken
      refine .inl ⟨by simp, imminent.rephase (.inr ⟨!loop.readyCo.isEmpty, ?_⟩)⟩
      rw [imminent.readyCo invariant]
  | resumeNext =>
      obtain ⟨co, rest, still, resuming, -, current, -⟩ := stepLoop_resumeNext taken
      simp only [resuming, reduceCtorEq, LoopPhase.resuming.injEq, List.cons.injEq,
        exists_and_left, false_or] at phase
      exact .inr ⟨rfl, phase.1.1 ▸ current⟩
  | sweep =>
      simp only [EventLoop.stepLoop] at taken
      split at taken
      · rename_i swept _
        simp [swept] at phase
      · cases taken
  | epollWait =>
      simp only [EventLoop.stepLoop, Option.ite_none_right_eq_some] at taken
      simp [taken.1.1] at phase

theorem step_of_stepLoop {label : LoopLabel Co Node} (taken : loop.stepLoop label = some next) :
    loop.step label = some next := by
  cases label with
  | addCo | setReady | registerNode | unregisterNode | yieldCo | finish =>
      simp [EventLoop.stepLoop] at taken
  | runEventLoop | enter | collect | resumeNext | sweep | epollWait => exact taken

theorem Imminent.step {label : LoopLabel Co Node} (imminent : Imminent loop handler)
    (invariant : LoopInvariant loop) (taken : loop.step label = some next) :
    label ≠ .resumeNext ∧ Imminent next handler ∨
      label = .resumeNext ∧ next.currentCo = some handler := by
  have moved := step_inversion taken
  cases label with
  | runEventLoop | enter | collect | resumeNext | sweep | epollWait =>
      exact imminent.stepLoop invariant moved
  | addCo | setReady => exact absurd moved.1.1 imminent.not_acting
  | registerNode | unregisterNode => exact absurd moved.1 imminent.not_acting
  | yieldCo | finish => simp [EventLoop.step, imminent.idle] at taken

/-- What a step other than a resume does to one coroutine. -/
inductive CoChange (loop next : EventLoop Co Node) (co : Co) : Prop
  | same (coState : next.coState co = loop.coState co) (task : next.task co = loop.task co)
  | added (unborn : loop.coState co = none) (ready : next.coState co = some .ready)
      (task : next.task co = none)
  | dispatched {fd : Nat} {node : Node} (unborn : loop.coState co = none)
      (ready : next.coState co = some .ready) (task : next.task co = some node)
      (found : loop.lookupNode fd = some node) (imminent : Imminent next co)
  | woken (suspended : loop.coState co = some .suspend) (ready : next.coState co = some .ready)
  | left (running : loop.coState co = some .running) (unready : next.coState co ≠ some .ready)

theorem leaveTurn_coChange {current : Co} {state : AcrState} (invariant : LoopInvariant loop)
    (runs : loop.currentCo = some current) (unready : state ≠ .ready) (co : Co) :
    CoChange loop (loop.leaveTurn current state) co := by
  by_cases own : co = current
  · subst own
    refine .left (invariant.current co runs) ?_
    simp [leaveTurn, setCoState, unready]
  · exact .same (by simp [leaveTurn, setCoState, own]) rfl

theorem stepLoop_coChange {label : LoopLabel Co Node} (invariant : LoopInvariant loop)
    (other : label ≠ .resumeNext) (taken : loop.stepLoop label = some next) (co : Co) :
    CoChange loop next co := by
  obtain ⟨_, same | ⟨fd, node, added, polling, found, unborn, rfl⟩⟩ := stepLoop_cases other taken
  · exact .same (by rw [same.coState]) (by rw [same.task])
  · by_cases own : co = added
    · subst own
      exact .dispatched unborn (by simp [addCo]) (by simp [addCo]) found
        (imminent_dispatch invariant polling found)
    · exact .same (by simp [addCo, own]) (by simp [addCo, own])

theorem step_coChange {label : LoopLabel Co Node} (invariant : LoopInvariant loop)
    (other : label ≠ .resumeNext) (taken : loop.step label = some next) (co : Co) :
    CoChange loop next co := by
  have moved := step_inversion taken
  cases label with
  | resumeNext => exact absurd rfl other
  | runEventLoop | enter | collect | sweep | epollWait =>
      exact stepLoop_coChange invariant other moved co
  | addCo added =>
      obtain ⟨⟨-, unborn⟩, rfl⟩ := moved
      by_cases own : co = added
      · subst own
        exact .added unborn (by simp [EventLoop.addCo]) (by simp [EventLoop.addCo])
      · exact .same (by simp [EventLoop.addCo, own]) (by simp [EventLoop.addCo, own])
  | setReady woken =>
      obtain ⟨⟨-, suspended⟩, rfl⟩ := moved
      by_cases own : co = woken
      · exact .woken (own ▸ suspended) (by simp [setCoState, own])
      · exact .same (by simp [setCoState, own]) rfl
  | registerNode fd node =>
      obtain ⟨-, rfl⟩ := moved
      unfold EventLoop.registerNode
      split <;> exact .same rfl rfl
  | unregisterNode fd =>
      obtain ⟨-, rfl⟩ := moved
      exact .same rfl rfl
  | yieldCo =>
      obtain ⟨current, runs, rfl⟩ := moved
      exact leaveTurn_coChange invariant runs (by simp) co
  | finish =>
      obtain ⟨current, runs, rfl⟩ := moved
      exact leaveTurn_coChange invariant runs (by simp) co

theorem stepLoop_fdToNode {label : LoopLabel Co Node} (taken : loop.stepLoop label = some next) :
    next.fdToNode = loop.fdToNode := by
  by_cases other : label = .resumeNext
  · subst other
    obtain ⟨co, rest, still, -, -, -, rfl⟩ := stepLoop_resumeNext taken
    rfl
  · exact (stepLoop_cases other taken).1

theorem step_lookupNode {label : LoopLabel Co Node} {fd : Nat} {node : Node}
    (taken : loop.step label = some next) (found : next.lookupNode fd = some node) :
    loop.lookupNode fd = some node ∨ label = .registerNode fd node := by
  have moved := step_inversion taken
  cases label with
  | runEventLoop | enter | collect | resumeNext | sweep | epollWait =>
      refine .inl ?_
      have entries := stepLoop_fdToNode moved
      simpa only [lookupNode, entries] using found
  | addCo | setReady =>
      obtain ⟨-, rfl⟩ := moved
      exact .inl found
  | registerNode taker made =>
      obtain ⟨-, rfl⟩ := moved
      rcases lookupNode_registerNode_cases found with before | ⟨⟨-, rfl⟩, rfl⟩
      · exact .inl before
      · exact .inr rfl
  | unregisterNode gone =>
      obtain ⟨-, rfl⟩ := moved
      rw [lookupNode_unregisterNode] at found
      split at found
      · cases found
      · exact .inl found
  | yieldCo | finish =>
      obtain ⟨current, -, rfl⟩ := moved
      exact .inl found

end AutoDrop.EventLoop
