import AutoDrop.EventLoopQuiet

/-!
Who keeps the nodes of an `EventLoop` alive: the entries of `m_fdToNode`, and the coroutines
whose functions are their handlers, until they are erased.
-/

namespace AutoDrop.EventLoop

variable {Co Node : Type*} {loop next : EventLoop Co Node} {co : Co} {node : Node}

def Holds (loop : EventLoop Co Node) (node : Node) : Prop :=
  (∃ fd, (fd, node) ∈ loop.fdToNode) ∨ ∃ co ∈ loop.coRoutines, loop.task co = some node

instance [DecidableEq Node] (loop : EventLoop Co Node) (node : Node) :
    Decidable (loop.Holds node) :=
  decidable_of_iff ((∃ entry ∈ loop.fdToNode, entry.2 = node) ∨
    ∃ co ∈ loop.coRoutines, loop.task co = some node) (by simp [Holds])

/-- A coroutine is erased only behind its end. -/
def Listed (loop : EventLoop Co Node) : Prop :=
  ∀ co, loop.coState co ≠ none → loop.coState co ≠ some .dead → co ∈ loop.coRoutines

theorem start_listed : (start : EventLoop Co Node).Listed := fun _ known => (known rfl).elim

theorem mem_of_lookupNode {fd : Nat} (found : loop.lookupNode fd = some node) :
    (fd, node) ∈ loop.fdToNode := by
  obtain ⟨before, after, entries, -⟩ := List.lookup_eq_some_iff.mp found
  rw [entries]
  simp

theorem holds_registerNode {fd : Nat} {added : Node}
    (holds : (loop.registerNode fd added).Holds node) : loop.Holds node ∨ node = added := by
  unfold registerNode at holds
  split at holds
  · rcases holds with ⟨other, member⟩ | handler
    · rcases List.mem_append.mp member with older | new
      · exact .inl (.inl ⟨other, older⟩)
      · exact .inr (Prod.mk.inj (List.mem_singleton.mp new)).2
    · exact .inl (.inr handler)
  · exact .inl holds

theorem Listed.registerNode {fd : Nat} (listed : loop.Listed) :
    (loop.registerNode fd node).Listed := by
  unfold EventLoop.registerNode
  split <;> exact listed

theorem currentCo_registerNode (loop : EventLoop Co Node) (fd : Nat) (node : Node) :
    (loop.registerNode fd node).currentCo = loop.currentCo := by
  unfold registerNode
  split <;> rfl

theorem holds_unregisterNode {fd : Nat} (holds : (loop.unregisterNode fd).Holds node) :
    loop.Holds node := by
  rcases holds with ⟨other, member⟩ | handler
  · exact .inl ⟨other, (List.mem_filter.mp member).1⟩
  · exact .inr handler

/-- The function of a coroutine is given to it once. -/
structure Keeps (loop next : EventLoop Co Node) (co : Co) : Prop where
  task : next.task co = loop.task co
  born : next.coState co ≠ none

theorem keeps_registerNode {fd : Nat} (known : loop.coState co ≠ none) :
    loop.Keeps (loop.registerNode fd node) co := by
  unfold registerNode
  split <;> exact ⟨rfl, known⟩

section Steps

variable [DecidableEq Co]

theorem holds_addCo {task : Option Node} (holds : (loop.addCo co task).Holds node) :
    loop.Holds node ∨ task = some node := by
  rcases holds with polled | ⟨handler, member, handles⟩
  · exact .inl (.inl polled)
  · simp only [addCo, Function.update_apply] at handles
    split at handles
    · exact .inr handles
    · rename_i apart
      simp only [addCo, List.mem_append, List.mem_singleton, apart, or_false] at member
      exact .inl (.inr ⟨handler, member, handles⟩)

theorem holds_stepLoop {label : LoopLabel Co Node} (taken : loop.stepLoop label = some next)
    (holds : next.Holds node) : loop.Holds node := by
  by_cases resumes : label = .resumeNext
  · subst label
    obtain ⟨co, rest, still, -, -, -, rfl⟩ := stepLoop_resumeNext taken
    exact holds
  · obtain ⟨fdToNode, same | ⟨fd, watched, co, -, found, -, rfl⟩⟩ := stepLoop_cases resumes taken
    · rcases holds with polled | ⟨handler, member, handles⟩
      · exact .inl (fdToNode ▸ polled)
      · exact .inr ⟨handler, same.older member, same.task ▸ handles⟩
    · have added : (loop.addCo co (some watched)).Holds node := holds
      rcases holds_addCo added with older | new
      · exact older
      · exact .inl ⟨fd, mem_of_lookupNode (new ▸ found)⟩

theorem holds_step {label : LoopLabel Co Node} (other : ∀ fd, label ≠ .registerNode fd node)
    (taken : loop.step label = some next) (holds : next.Holds node) : loop.Holds node := by
  have moved := step_inversion taken
  cases label with
  | runEventLoop | enter | collect | resumeNext | sweep | epollWait =>
      exact holds_stepLoop moved holds
  | addCo co =>
      obtain ⟨-, rfl⟩ := moved
      exact (holds_addCo holds).resolve_right (by simp)
  | setReady co =>
      obtain ⟨-, rfl⟩ := moved
      exact holds
  | registerNode fd added =>
      obtain ⟨-, rfl⟩ := moved
      refine (holds_registerNode holds).resolve_right ?_
      rintro rfl
      exact other fd rfl
  | unregisterNode fd =>
      obtain ⟨-, rfl⟩ := moved
      exact holds_unregisterNode holds
  | yieldCo | finish =>
      obtain ⟨co, current, rfl⟩ := moved
      exact holds

theorem Listed.setCoState {state : AcrState} (listed : loop.Listed)
    (member : co ∈ loop.coRoutines) : (loop.setCoState co state).Listed := by
  intro other known alive
  by_cases same : other = co
  · exact same ▸ member
  · have kept : (loop.setCoState co state).coState other = loop.coState other :=
      Function.update_of_ne same ..
    exact listed other (kept ▸ known) (kept ▸ alive)

theorem Listed.leaveTurn {state : AcrState} (listed : loop.Listed)
    (invariant : LoopInvariant loop) (current : loop.currentCo = some co) :
    (loop.leaveTurn co state).Listed := by
  have running := invariant.current co current
  exact listed.setCoState (listed co (by simp [running]) (by simp [running]))

theorem Listed.addCo {task : Option Node} (listed : loop.Listed) : (loop.addCo co task).Listed := by
  intro other known alive
  simp only [EventLoop.addCo, Function.update_apply, List.mem_append, List.mem_singleton]
    at known alive ⊢
  by_cases same : other = co
  · exact .inr same
  · rw [if_neg same] at known alive
    exact .inl (listed other known alive)

theorem Listed.stepLoop {label : LoopLabel Co Node} (listed : loop.Listed)
    (invariant : LoopInvariant loop) (taken : loop.stepLoop label = some next) : next.Listed := by
  by_cases resumes : label = .resumeNext
  · subst label
    obtain ⟨co, rest, still, phase, -, -, rfl⟩ := stepLoop_resumeNext taken
    have ready := (invariant.snapshot _ _ phase).2 co List.mem_cons_self
    have rephased : { loop with phase := .resuming rest still }.Listed := listed
    exact rephased.setCoState (listed co (by simp [ready]) (by simp [ready]))
  · obtain ⟨-, same | ⟨fd, watched, co, -, -, -, rfl⟩⟩ := stepLoop_cases resumes taken
    · intro co known alive
      rw [same.coState] at known alive
      exact same.alive co (listed co known alive) alive
    · have added : (loop.addCo co (some watched)).Listed := listed.addCo
      exact added

theorem Listed.step {label : LoopLabel Co Node} (listed : loop.Listed)
    (invariant : LoopInvariant loop) (taken : loop.step label = some next) : next.Listed := by
  have moved := step_inversion taken
  cases label with
  | runEventLoop | enter | collect | resumeNext | sweep | epollWait =>
      exact listed.stepLoop invariant moved
  | addCo co =>
      obtain ⟨-, rfl⟩ := moved
      exact listed.addCo
  | setReady co =>
      obtain ⟨⟨-, suspended⟩, rfl⟩ := moved
      exact listed.setCoState (listed co (by simp [suspended]) (by simp [suspended]))
  | registerNode fd added =>
      obtain ⟨-, rfl⟩ := moved
      exact listed.registerNode
  | unregisterNode fd =>
      obtain ⟨-, rfl⟩ := moved
      exact listed
  | yieldCo | finish =>
      obtain ⟨co, current, rfl⟩ := moved
      exact listed.leaveTurn invariant current

theorem keeps_setCoState {other : Co} {state : AcrState} (known : loop.coState co ≠ none) :
    loop.Keeps (loop.setCoState other state) co := by
  refine ⟨rfl, ?_⟩
  simp only [setCoState, Function.update_apply]
  split
  · simp
  · exact known

theorem keeps_leaveTurn {other : Co} {state : AcrState} (known : loop.coState co ≠ none) :
    loop.Keeps (loop.leaveTurn other state) co := by
  have kept : loop.Keeps (loop.setCoState other state) co := keeps_setCoState known
  exact ⟨kept.task, kept.born⟩

theorem keeps_addCo {other : Co} {task : Option Node} (known : loop.coState co ≠ none)
    (unborn : loop.coState other = none) : loop.Keeps (loop.addCo other task) co := by
  have apart : co ≠ other := by
    rintro rfl
    exact known unborn
  have state : (loop.addCo other task).coState co = loop.coState co :=
    Function.update_of_ne apart ..
  exact ⟨Function.update_of_ne apart .., state ▸ known⟩

theorem keeps_stepLoop {label : LoopLabel Co Node} (known : loop.coState co ≠ none)
    (taken : loop.stepLoop label = some next) : loop.Keeps next co := by
  by_cases resumes : label = .resumeNext
  · subst label
    obtain ⟨other, rest, still, -, -, -, rfl⟩ := stepLoop_resumeNext taken
    have kept : loop.Keeps (loop.setCoState other .running) co := keeps_setCoState known
    exact ⟨kept.task, kept.born⟩
  · obtain ⟨-, same | ⟨fd, watched, other, -, -, unborn, rfl⟩⟩ := stepLoop_cases resumes taken
    · exact ⟨congrFun same.task co, same.coState ▸ known⟩
    · have kept : loop.Keeps (loop.addCo other (some watched)) co := keeps_addCo known unborn
      exact ⟨kept.task, kept.born⟩

theorem keeps_step {label : LoopLabel Co Node} (known : loop.coState co ≠ none)
    (taken : loop.step label = some next) : loop.Keeps next co := by
  have moved := step_inversion taken
  cases label with
  | runEventLoop | enter | collect | resumeNext | sweep | epollWait =>
      exact keeps_stepLoop known moved
  | addCo other =>
      obtain ⟨guard, rfl⟩ := moved
      exact keeps_addCo known guard.2
  | setReady other =>
      obtain ⟨-, rfl⟩ := moved
      exact keeps_setCoState known
  | registerNode fd added =>
      obtain ⟨-, rfl⟩ := moved
      exact keeps_registerNode known
  | unregisterNode fd =>
      obtain ⟨-, rfl⟩ := moved
      exact ⟨rfl, known⟩
  | yieldCo | finish =>
      obtain ⟨other, current, rfl⟩ := moved
      exact keeps_leaveTurn known

end Steps

end AutoDrop.EventLoop
