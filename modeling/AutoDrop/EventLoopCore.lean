import AutoDrop.CoMutexCore
import AutoDrop.EventSc

/-!
`runEventLoop` with the coroutines it resumes. A coroutine has the processor from its
resume to its next yield, so the actions of the running one are labels of their own. The
kernel decides which registered descriptor `epoll_wait` reports.
-/

namespace AutoDrop

/-- Where `runEventLoop` stands, `readyCo` being what is left of the list of that name. -/
inductive LoopPhase (Co : Type*)
  | outside
  | entering
  | collecting
  | resuming (readyCo : List Co) (stillHasReadyCo : Bool)
  | polling
deriving DecidableEq

structure EventLoop (Co Node : Type*) where
  coRoutines : List Co
  coState : Co → Option AcrState
  currentCo : Option Co
  fdToNode : List (Nat × Node)
  -- the node whose handleEvent is the function of the coroutine
  task : Co → Option Node
  phase : LoopPhase Co

inductive LoopLabel (Co Node : Type*)
  | runEventLoop
  | enter
  | collect
  | resumeNext
  | sweep
  | epollWait (event : Option (Nat × Co))
  | addCo (co : Co)
  | setReady (co : Co)
  | registerNode (fd : Nat) (node : Node)
  | unregisterNode (fd : Nat)
  | yieldCo
  | finish

namespace EventLoop

variable {Co Node : Type*} [DecidableEq Co]

def start : EventLoop Co Node where
  coRoutines := []
  coState := fun _ => none
  currentCo := none
  fdToNode := []
  task := fun _ => none
  phase := .outside

def setCoState (loop : EventLoop Co Node) (co : Co) (state : AcrState) : EventLoop Co Node :=
  { loop with coState := Function.update loop.coState co (some state) }

def addCo (loop : EventLoop Co Node) (co : Co) (task : Option Node) : EventLoop Co Node :=
  { loop with
    coRoutines := loop.coRoutines ++ [co]
    coState := Function.update loop.coState co (some .ready)
    task := Function.update loop.task co task }

def resumeCo (loop : EventLoop Co Node) (co : Co) : EventLoop Co Node :=
  { loop.setCoState co .running with currentCo := some co }

/-- The end of a turn: `yield_co`, or `co_routine_func` behind the function. -/
def leaveTurn (loop : EventLoop Co Node) (co : Co) (state : AcrState) : EventLoop Co Node :=
  { loop.setCoState co state with currentCo := none }

def lookupNode (loop : EventLoop Co Node) (fd : Nat) : Option Node :=
  loop.fdToNode.lookup fd

def registerNode (loop : EventLoop Co Node) (fd : Nat) (node : Node) : EventLoop Co Node :=
  if (loop.lookupNode fd).isNone then
    { loop with fdToNode := loop.fdToNode ++ [(fd, node)] }
  else loop

def unregisterNode (loop : EventLoop Co Node) (fd : Nat) : EventLoop Co Node :=
  { loop with fdToNode := loop.fdToNode.filter fun entry => entry.1 ≠ fd }

def readyCo (loop : EventLoop Co Node) : List Co :=
  loop.coRoutines.filter fun co => loop.coState co = some .ready

def eraseDead (loop : EventLoop Co Node) : EventLoop Co Node :=
  { loop with coRoutines := loop.coRoutines.filter fun co => loop.coState co ≠ some .dead }

def afterSweep (loop : EventLoop Co Node) (stillHasReadyCo : Bool) : LoopPhase Co :=
  if stillHasReadyCo then .collecting
  else if loop.fdToNode.isEmpty then .outside else .polling

/-- The kernel's event, or the failed call; an event of an unknown descriptor is dropped. -/
def dispatch (loop : EventLoop Co Node) : Option (Nat × Co) → EventLoop Co Node
  | none => loop
  | some (fd, co) =>
      match loop.lookupNode fd with
      | none => loop
      | some node => loop.addCo co (some node)

def stepLoop (loop : EventLoop Co Node) : LoopLabel Co Node → Option (EventLoop Co Node)
  | .runEventLoop =>
      if loop.phase = .outside then some { loop with phase := .entering } else none
  | .enter =>
      if loop.phase = .entering then
        some { loop with phase := if loop.fdToNode.isEmpty then .outside else .collecting }
      else none
  | .collect =>
      if loop.phase = .collecting then
        some { loop with phase := .resuming loop.readyCo (!loop.readyCo.isEmpty) }
      else none
  | .resumeNext =>
      match loop.phase, loop.currentCo with
      | .resuming (co :: rest) still, none =>
          some ({ loop with phase := .resuming rest still }.resumeCo co)
      | _, _ => none
  | .sweep =>
      match loop.phase, loop.currentCo with
      | .resuming [] still, none => some { loop.eraseDead with phase := loop.afterSweep still }
      | _, _ => none
  | .epollWait event =>
      if loop.phase = .polling ∧ ∀ pair ∈ event, loop.coState pair.2 = none then
        some { loop.dispatch event with phase := .entering }
      else none
  | _ => none

def Acting (loop : EventLoop Co Node) : Prop :=
  loop.phase = .outside ∨ loop.currentCo ≠ none

instance (loop : EventLoop Co Node) : Decidable loop.Acting :=
  inferInstanceAs (Decidable (_ ∨ _))

def step (loop : EventLoop Co Node) : LoopLabel Co Node → Option (EventLoop Co Node)
  | .addCo co =>
      if loop.Acting ∧ loop.coState co = none then some (loop.addCo co none) else none
  | .setReady co =>
      if loop.Acting ∧ loop.coState co = some .suspend then some (loop.setCoState co .ready)
      else none
  | .registerNode fd node =>
      if loop.Acting then some (loop.registerNode fd node) else none
  | .unregisterNode fd =>
      if loop.Acting then some (loop.unregisterNode fd) else none
  | .yieldCo => loop.currentCo.map fun co => loop.leaveTurn co .suspend
  | .finish => loop.currentCo.map fun co => loop.leaveTurn co .dead
  | label => loop.stepLoop label

section Descriptors

variable {Co Node : Type*} {loop : EventLoop Co Node} {fd other : Nat} {node : Node}

theorem lookupNode_registerNode (free : loop.lookupNode fd = none) :
    (loop.registerNode fd node).lookupNode other =
      if other = fd then some node else loop.lookupNode other := by
  simp only [registerNode, free, Option.isNone_none, ↓reduceIte]
  simp only [lookupNode, List.lookup_append] at free ⊢
  by_cases same : other = fd
  · subst other
    simp [free]
  · have apart : (other == fd) = false := by simpa using same
    simp [same, List.lookup_cons, apart]

theorem lookup_filter (entries : List (Nat × Node)) :
    (entries.filter fun entry => entry.1 ≠ fd).lookup other =
      if other = fd then none else entries.lookup other := by
  induction entries with
  | nil => simp
  | cons entry rest ih =>
      obtain ⟨key, value⟩ := entry
      by_cases gone : key = fd
      · rw [List.filter_cons_of_neg (by simp [gone]), ih]
        by_cases same : other = fd
        · simp [same]
        · have apart : (other == key) = false := by simpa [gone] using same
          simp [same, List.lookup_cons, apart]
      · rw [List.filter_cons_of_pos (by simp [gone]), List.lookup_cons, List.lookup_cons, ih]
        by_cases found : other = key
        · simp [found, gone]
        · have apart : (other == key) = false := by simpa using found
          simp [apart]

theorem lookupNode_unregisterNode :
    (loop.unregisterNode fd).lookupNode other =
      if other = fd then none else loop.lookupNode other :=
  lookup_filter loop.fdToNode

def eventSc (loop : EventLoop Co Node) : EventSc Node where
  fdToNode := loop.lookupNode
  epoll := fun fd => (loop.lookupNode fd).isSome

theorem registerNode_eventSc :
    (loop.registerNode fd node).eventSc = loop.eventSc.registerNode fd node := by
  cases free : loop.lookupNode fd with
  | none =>
      have looked (other : Nat) : (loop.registerNode fd node).lookupNode other =
          if other = fd then some node else loop.lookupNode other := lookupNode_registerNode free
      simp only [eventSc, EventSc.registerNode, free, Option.isNone_none, Option.isSome_none,
        and_self, ↓reduceIte, EventSc.mk.injEq]
      constructor <;> funext other <;> simp only [looked, Function.update_apply]
      split <;> rfl
  | some taken => simp [registerNode, EventSc.registerNode, eventSc, free]

theorem unregisterNode_eventSc :
    (loop.unregisterNode fd).eventSc = loop.eventSc.unregisterNode fd := by
  have looked (other : Nat) : (loop.unregisterNode fd).lookupNode other =
      if other = fd then none else loop.lookupNode other := lookupNode_unregisterNode
  unfold EventSc.unregisterNode
  split
  · simp only [eventSc, EventSc.mk.injEq]
    constructor <;> funext other <;> simp only [looked, Function.update_apply]
    split <;> rfl
  · rename_i unknown
    have free : loop.lookupNode fd = none := by simpa [eventSc] using unknown
    have same : (loop.unregisterNode fd).lookupNode = loop.lookupNode := by
      funext other
      rw [looked]
      split
      · simp_all
      · rfl
    simp only [eventSc, same]

end Descriptors

end EventLoop

end AutoDrop
