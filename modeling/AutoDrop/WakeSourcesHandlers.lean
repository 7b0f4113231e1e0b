import AutoDrop.WakeSources

/-!
What the handler of a waking node leaves behind, whoever holds the descriptors it takes away.
-/

namespace AutoDrop

open EventLoop

namespace ScNode

variable {Co : Type*}

/-- The descriptors that the handler of the node unregisters. -/
def cleared : ScNode Co → List Nat
  | coEvent fd _ _ timer => fd :: timer.toList
  | coTimeout timerFd fd _ _ => [timerFd, fd]
  | coTimer timerFd _ _ => [timerFd]
  | other => []

def owner : ScNode Co → Option Co
  | coEvent _ co _ _ => some co
  | coTimeout _ _ co _ => some co
  | coTimer _ co _ => some co
  | other => none

/-- The result that the handler leaves for `yield_by_fd`. -/
def result : ScNode Co → Bool → Bool
  | coEvent .. => fun _ => true
  | coTimeout .. => fun _ => false
  | _ => id

theorem source_eq_some {Mutex : Type*} {node : ScNode Co} {co : Co} {yieldNo : Nat}
    {call : YieldCall Mutex} (source : node.source = some (co, yieldNo, call)) :
    node.internal = true ∧ node.owner = some co := by
  cases node <;> simp_all [ScNode.source, internal, owner]

theorem exists_source (Mutex : Type*) {node : ScNode Co} {co : Co} (its : node.owner = some co) :
    ∃ yieldNo, ∃ call : YieldCall Mutex, node.source = some (co, yieldNo, call) := by
  cases node <;> simp_all [ScNode.source, owner]

end ScNode

namespace CoWorld

variable {Co Mutex : Type*} {world : CoWorld Co Mutex} {co which : Co} {yieldNo fd other : Nat}
  {timer : Option Nat}

@[simp] theorem lookupNode_unregisterNode : (world.unregisterNode fd).loop.lookupNode other =
    if other = fd then none else world.loop.lookupNode other :=
  EventLoop.lookupNode_unregisterNode

@[simp] theorem coState_unregisterNode :
    (world.unregisterNode fd).loop.coState = world.loop.coState := rfl

@[simp] theorem lookupNode_stopTimer : (world.stopTimer timer).loop.lookupNode other =
    if timer = some other then none else world.loop.lookupNode other := by
  cases timer with
  | none => simp [stopTimer]
  | some timerFd => simp [stopTimer, eq_comm]

@[simp] theorem coState_stopTimer :
    (world.stopTimer timer).loop.coState = world.loop.coState := by
  cases timer <;> rfl

variable [DecidableEq Co]

@[simp] theorem loop_setYieldResult (result : Bool) :
    (world.setYieldResult co result).loop = world.loop := rfl

@[simp] theorem lookupNode_setReady :
    (world.setReady co yieldNo).loop.lookupNode other = world.loop.lookupNode other := rfl

@[simp] theorem coState_setReady : (world.setReady co yieldNo).loop.coState =
    Function.update world.loop.coState co (some .ready) := rfl

theorem lookupNode_handleNode (node : ScNode Co) : (world.handleNode node).loop.lookupNode other =
    if other ∈ node.cleared then none else world.loop.lookupNode other := by
  cases node with
  | other => simp [handleNode, ScNode.cleared]
  | coTimer timerFd owner number => simp [handleNode, ScNode.cleared, eq_comm]
  | coTimeout timerFd own owner number =>
      simp only [handleNode, coEventHandle, loop_setYieldResult, lookupNode_unregisterNode,
        lookupNode_setReady, lookupNode_stopTimer, ScNode.cleared, List.mem_cons,
        List.not_mem_nil, or_false]
      grind
  | coEvent own owner number timer =>
      simp only [handleNode, coEventHandle, loop_setYieldResult, lookupNode_unregisterNode,
        lookupNode_setReady, lookupNode_stopTimer, ScNode.cleared, List.mem_cons,
        Option.mem_toList]
      grind

theorem coState_handleNode (node : ScNode Co) : (world.handleNode node).loop.coState which =
    if node.owner = some which then some .ready else world.loop.coState which := by
  cases node <;> simp [handleNode, coEventHandle, ScNode.owner, Function.update_apply, eq_comm]

/-- A handler touches the registry, the state and the result of its owner, and the log. -/
theorem handleNode_eq (world : CoWorld Co Mutex) (node : ScNode Co) :
    ∃ fdToNode coState yieldResult wakes, world.handleNode node =
      { world with loop := { world.loop with fdToNode, coState }, yieldResult, wakes } := by
  cases node with
  | other | coTimer | coTimeout => exact ⟨_, _, _, _, rfl⟩
  | coEvent fd owner number timer => cases timer <;> exact ⟨_, _, _, _, rfl⟩

theorem yielding_handleNode (node : ScNode Co) :
    (world.handleNode node).yielding = world.yielding := by
  obtain ⟨_, _, _, _, same⟩ := handleNode_eq world node
  rw [same]

theorem yieldCount_handleNode (node : ScNode Co) :
    (world.handleNode node).yieldCount = world.yieldCount := by
  obtain ⟨_, _, _, _, same⟩ := handleNode_eq world node
  rw [same]

theorem yieldResult_handleNode {node : ScNode Co} (owner : node.owner = some co) :
    (world.handleNode node).yieldResult co = node.result (world.yieldResult co) := by
  cases node with
  | other => simp [ScNode.owner] at owner
  | coEvent fd which number timer =>
      obtain rfl : which = co := by simpa [ScNode.owner] using owner
      cases timer <;> simp [handleNode, coEventHandle, stopTimer, setReady, setYieldResult,
        CoWorld.unregisterNode, ScNode.result]
  | coTimeout timerFd fd which number =>
      obtain rfl : which = co := by simpa [ScNode.owner] using owner
      simp [handleNode, setYieldResult, ScNode.result]
  | coTimer => rfl

end CoWorld

end AutoDrop
