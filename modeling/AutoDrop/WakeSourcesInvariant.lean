import AutoDrop.EventLoopQuiet
import AutoDrop.WakeSourcesCore

/-!
Invariants of the waking sources: what a registered node or a queue entry knows about its
coroutine, where a handler coroutine can stand before it ran, and what the logs hold.
-/

namespace AutoDrop.CoWorld

open EventLoop

variable {Co Mutex : Type*} {world next : CoWorld Co Mutex} {co : Co} {yieldNo : Nat}
  {call : YieldCall Mutex}

def SuspendedIn (world : CoWorld Co Mutex) (co : Co) (yieldNo : Nat) (call : YieldCall Mutex) :
    Prop :=
  world.loop.coState co = some .suspend ∧ world.yielding co = some (yieldNo, call)

structure Sources (world : CoWorld Co Mutex) : Prop where
  placed : ∀ fd node, world.loop.lookupNode fd = some node → node.At fd
  nodes : ∀ fd node, world.loop.lookupNode fd = some node → ∀ co yieldNo call,
    node.source = some (co, yieldNo, call) → SuspendedIn world co yieldNo call
  queued : ∀ mutex co yieldNo, (co, yieldNo) ∈ (world.mutexes mutex).waitCo →
    SuspendedIn world co yieldNo (.inLock mutex)
  distinct : ∀ mutex, (world.mutexes mutex).waitCo.Nodup

/-- The handler was added by the last `epoll_wait` and nothing ran since. -/
structure Due (loop : EventLoop Co (ScNode Co)) (handler : Co) : Prop where
  idle : loop.currentCo = none
  listed : handler ∈ loop.coRoutines
  alone : ∀ co ∈ loop.coRoutines, loop.coState co = some .ready → co = handler
  phase : loop.phase = .entering ∨ loop.phase = .collecting ∨
    ∃ still, loop.phase = .resuming [handler] still

structure Handlers (loop : EventLoop Co (ScNode Co)) : Prop where
  awake : ∀ handler node, loop.task handler = some node → node.internal = true →
    loop.coState handler ≠ some .suspend
  armed : ∀ handler node, loop.task handler = some node → node.internal = true →
    loop.coState handler = some .ready ∨ loop.coState handler = some .running →
      ∃ fd, loop.lookupNode fd = some node
  due : ∀ handler node, loop.task handler = some node → node.internal = true →
    loop.coState handler = some .ready → Due loop handler

def NoHandler (loop : EventLoop Co (ScNode Co)) : Prop :=
  ∀ handler node, loop.task handler = some node → node.internal = true →
    loop.coState handler = none ∨ loop.coState handler = some .dead

structure Logs (world : CoWorld Co Mutex) : Prop where
  unborn : ∀ co, world.loop.coState co = none → world.yielding co = none
  numbered : ∀ co yieldNo call, world.yielding co = some (yieldNo, call) →
    yieldNo < world.yieldCount
  unique : ∀ first second yieldNo call other, world.yielding first = some (yieldNo, call) →
    world.yielding second = some (yieldNo, other) → first = second
  woken : ∀ wake ∈ world.wakes, wake.stateThen = some .suspend ∧
    wake.yieldThen = some wake.yieldNo
  wokenPast : ∀ wake ∈ world.wakes, wake.yieldNo < world.yieldCount ∧
    ∀ co call, ¬SuspendedIn world co wake.yieldNo call
  wokenOnce : (world.wakes.map Wake.yieldNo).Nodup
  resumed : ∀ resume ∈ world.resumes, resume.stateThen = some .ready
  resumedPast : ∀ resume ∈ world.resumes, ∀ yieldNo, resume.yieldThen = some yieldNo →
    yieldNo < world.yieldCount ∧ ∀ co call, world.yielding co ≠ some (yieldNo, call)
  started : ∀ resume ∈ world.resumes, resume.yieldThen = none →
    world.yielding resume.co = none →
      world.loop.coState resume.co ≠ none ∧ world.loop.coState resume.co ≠ some .ready
  resumedOnce : (world.resumes.map fun resume => (resume.co, resume.yieldThen)).Nodup

structure WorldInvariant (world : CoWorld Co Mutex) : Prop where
  loop : LoopInvariant world.loop
  sources : Sources world
  handlers : Handlers world.loop
  logs : Logs world

theorem start_worldInvariant : WorldInvariant (start : CoWorld Co Mutex) where
  loop := start_loopInvariant
  sources := by constructor <;> simp [start, EventLoop.start, lookupNode]
  handlers := by constructor <;> simp [start, EventLoop.start]
  logs := by constructor <;> simp [start]

section Frames

theorem Sources.frame (sources : Sources world)
    (lookup : ∀ fd node, next.loop.lookupNode fd = some node →
      world.loop.lookupNode fd = some node ∨ node = .other)
    (queues : ∀ mutex, (next.mutexes mutex).waitCo = (world.mutexes mutex).waitCo)
    (kept : ∀ co yieldNo call, SuspendedIn world co yieldNo call →
      SuspendedIn next co yieldNo call) : Sources next := by
  refine ⟨fun fd node found => ?_, fun fd node found co yieldNo call source => ?_,
    fun mutex co yieldNo waits => ?_, fun mutex => ?_⟩
  · rcases lookup fd node found with before | rfl
    · exact sources.placed fd node before
    · trivial
  · rcases lookup fd node found with before | rfl
    · exact kept co yieldNo call (sources.nodes fd node before co yieldNo call source)
    · simp [ScNode.source] at source
  · rw [queues] at waits
    exact kept _ _ _ (sources.queued mutex co yieldNo waits)
  · rw [queues]
    exact sources.distinct mutex

theorem Logs.frame (logs : Logs world) (yielding : next.yielding = world.yielding)
    (yieldCount : next.yieldCount = world.yieldCount) (wakes : next.wakes = world.wakes)
    (resumes : next.resumes = world.resumes)
    (unborn : ∀ co, next.loop.coState co = none → world.loop.coState co = none)
    (unresumed : ∀ co, next.loop.coState co = some .ready →
      world.loop.coState co = none ∨ world.loop.coState co = some .ready)
    (suspended : ∀ co, next.loop.coState co = some .suspend →
      world.loop.coState co = some .suspend) : Logs next := by
  refine ⟨fun co none => ?_, ?_, ?_, ?_, fun wake member => ?_, ?_, ?_, ?_,
    fun resume member first outside => ?_, ?_⟩
  · rw [yielding]
    exact logs.unborn co (unborn co none)
  · rw [yielding, yieldCount]
    exact logs.numbered
  · rw [yielding]
    exact logs.unique
  · rw [wakes]
    exact logs.woken
  · rw [wakes] at member
    obtain ⟨bound, past⟩ := logs.wokenPast wake member
    refine ⟨yieldCount ▸ bound, fun co call inside => past co call ⟨suspended co inside.1, ?_⟩⟩
    rw [← yielding]
    exact inside.2
  · rw [wakes]
    exact logs.wokenOnce
  · rw [resumes]
    exact logs.resumed
  · rw [resumes, yieldCount, yielding]
    exact logs.resumedPast
  · rw [resumes] at member
    rw [yielding] at outside
    obtain ⟨born, running⟩ := logs.started resume member first outside
    refine ⟨fun none => born (unborn _ none), fun ready => ?_⟩
    rcases unresumed _ ready with none | same
    · exact born none
    · exact running same
  · rw [resumes]
    exact logs.resumedOnce

theorem NoHandler.handlers {loop : EventLoop Co (ScNode Co)} (none : NoHandler loop) :
    Handlers loop := by
  refine ⟨fun handler node task internal asleep => ?_,
    fun handler node task internal about => ?_, fun handler node task internal ready => ?_⟩ <;>
    rcases none handler node task internal with state | state <;> simp_all

end Frames

end AutoDrop.CoWorld
