import AutoDrop.EventLoopDispatch
import AutoDrop.EventLoopOwners
import AutoDrop.WakeSourcesHandlers

/-!
Every step of a `CoWorld` is a run of its `EventLoop`, so what holds of the loop whatever
the coroutines do holds here too.
-/

namespace AutoDrop.CoWorld

open LabelledRun EventLoop

variable {Co Mutex : Type*} [DecidableEq Co] {world next : CoWorld Co Mutex}
  {loop : EventLoop Co (ScNode Co)} {co : Co}

section Actions

theorem reaches_registerNode (acting : loop.Acting) (fd : Nat) (node : ScNode Co) :
    Reachable EventLoop.step loop (loop.registerNode fd node) :=
  ⟨[.registerNode fd node], by simp [exec, EventLoop.step, acting]⟩

theorem reaches_unregisterNode (acting : loop.Acting) (fd : Nat) :
    Reachable EventLoop.step loop (loop.unregisterNode fd) :=
  ⟨[.unregisterNode fd], by simp [exec, EventLoop.step, acting]⟩

theorem reaches_setReady (acting : loop.Acting) (suspended : loop.coState co = some .suspend) :
    Reachable EventLoop.step loop (loop.setCoState co .ready) :=
  ⟨[.setReady co], by simp [exec, EventLoop.step, acting, suspended]⟩

theorem reaches_yieldCo (current : loop.currentCo = some co) :
    Reachable EventLoop.step loop (loop.leaveTurn co .suspend) :=
  ⟨[.yieldCo], by simp [exec, EventLoop.step, current]⟩

theorem reaches_finish (current : loop.currentCo = some co) :
    Reachable EventLoop.step loop (loop.leaveTurn co .dead) :=
  ⟨[.finish], by simp [exec, EventLoop.step, current]⟩

omit [DecidableEq Co] in
theorem acting_registerNode (acting : loop.Acting) (fd : Nat) (node : ScNode Co) :
    (loop.registerNode fd node).Acting := by
  unfold EventLoop.registerNode
  split <;> exact acting

theorem stopTimer_reaches (acting : world.loop.Acting) (timer : Option Nat) :
    Reachable EventLoop.step world.loop (world.stopTimer timer).loop ∧
      (world.stopTimer timer).loop.Acting := by
  cases timer with
  | none => exact ⟨Reachable.refl _, acting⟩
  | some timerFd => exact ⟨reaches_unregisterNode acting timerFd, acting⟩

theorem handleNode_reaches {node : ScNode Co} (acting : world.loop.Acting)
    (suspended : ∀ owner ∈ node.owner, world.loop.coState owner = some .suspend) :
    Reachable EventLoop.step world.loop (world.handleNode node).loop := by
  have event (fd : Nat) (owner : Co) (number : Nat) (timer : Option Nat)
      (asleep : world.loop.coState owner = some .suspend) :
      Reachable EventLoop.step world.loop (world.coEventHandle fd owner number timer).loop := by
    obtain ⟨stopped, still⟩ := stopTimer_reaches acting timer
    have woken : ((world.stopTimer timer).loop.setCoState owner .ready).Acting := still
    refine (stopped.trans (reaches_setReady still ?_)).trans (reaches_unregisterNode woken fd)
    rwa [coState_stopTimer]
  cases node with
  | other => exact Reachable.refl _
  | coEvent fd owner number timer => exact event fd owner number timer (suspended owner rfl)
  | coTimeout timerFd fd owner number =>
      exact event fd owner number (some timerFd) (suspended owner rfl)
  | coTimer timerFd owner number =>
      obtain ⟨stopped, still⟩ := stopTimer_reaches acting (some timerFd)
      exact stopped.trans (reaches_setReady still (suspended owner rfl))

theorem yieldByFd_reaches {fd : Nat} {timer : Option Nat}
    (current : world.loop.currentCo = some co) :
    Reachable EventLoop.step world.loop (world.yieldByFd co fd timer).loop := by
  have acting : world.loop.Acting := .inr (by simp [current])
  cases timer with
  | none =>
      refine (reaches_registerNode acting fd _).trans (reaches_yieldCo ?_)
      rwa [currentCo_registerNode]
  | some timerFd =>
      have started := acting_registerNode acting timerFd (.coTimeout timerFd fd co world.yieldCount)
      refine ((reaches_registerNode acting timerFd _).trans
        (reaches_registerNode started fd _)).trans (reaches_yieldCo ?_)
      rwa [currentCo_registerNode, currentCo_registerNode]

theorem yieldByTimer_reaches {timerFd : Nat} (current : world.loop.currentCo = some co) :
    Reachable EventLoop.step world.loop (world.yieldByTimer co timerFd).loop := by
  refine (reaches_registerNode (.inr (by simp [current])) timerFd _).trans (reaches_yieldCo ?_)
  rwa [currentCo_registerNode]

variable [DecidableEq Mutex] {mutex : Mutex}

theorem testHolder_reaches (current : world.loop.currentCo = some co) :
    Reachable EventLoop.step world.loop (world.testHolder co mutex).loop := by
  unfold testHolder
  split
  · exact reaches_yieldCo current
  · exact Reachable.refl _

theorem unlock_reaches (settled : Settled world) (acting : world.loop.Acting) :
    Reachable EventLoop.step world.loop (world.unlock mutex).loop := by
  simp only [unlock]
  split
  · rename_i woken yieldNo others _ queue
    rw [QueuedMutex.waitCo_leave] at queue
    have inside := settled.sources.queued mutex woken yieldNo (by simp [queue])
    exact reaches_setReady acting inside.1
  · exact Reachable.refl _

end Actions

variable [DecidableEq Mutex] {label : WorldLabel Co Mutex}

theorem step_reaches (invariant : WorldInvariant world) (taken : step world label = some next) :
    Reachable EventLoop.step world.loop next.loop := by
  have reached {label : LoopLabel Co (ScNode Co)} {loop : EventLoop Co (ScNode Co)}
      (moved : world.loop.stepLoop label = some loop) :
      Reachable EventLoop.step world.loop loop :=
    (Reachable.refl _).tail (step_of_stepLoop moved)
  cases step_effect taken with
  | turn _ moved => exact reached moved
  | resumeNext moved => exact reached moved
  | @handleEvent co node current task internal =>
      have runs := invariant.loop.current co current
      obtain ⟨fd, found⟩ := invariant.handlers.armed co node task internal (.inr runs)
      refine (handleNode_reaches (.inr (by simp [current])) fun owner its => ?_).trans
        (reaches_finish (handleNode_currentCo.trans current))
      obtain ⟨number, call, source⟩ := ScNode.exists_source Mutex its
      exact (invariant.sources.nodes fd node found owner number call source).1
  | @addCo co acting unborn =>
      exact ⟨[.addCo co], by simp [exec, EventLoop.step, (acting_of_program acting).1, unborn]⟩
  | registerOther acting => exact reaches_registerNode (acting_of_program acting).1 _ _
  | unregisterOther acting => exact reaches_unregisterNode (acting_of_program acting).1 _
  | @retry co mutex current =>
      have before : ({ world with retrying := Function.update world.retrying co none } :
          CoWorld Co Mutex).loop.currentCo = some co := current
      exact testHolder_reaches before
  | yieldByFd program => exact yieldByFd_reaches (program_eq_some program).1
  | yieldByTimer program => exact yieldByTimer_reaches (program_eq_some program).1
  | @lock co mutex program =>
      unfold CoWorld.lock
      split
      · exact testHolder_reaches (program_eq_some program).1
      · exact Reachable.refl _
  | unlock program =>
      exact unlock_reaches invariant.settled (.inr (by simp [(program_eq_some program).1]))
  | finish program => exact reaches_finish (program_eq_some program).1

theorem reachable_loop (reached : Reachable step start world) :
    Reachable EventLoop.step EventLoop.start world.loop := by
  have onward : ∀ (world : CoWorld Co Mutex) label next, Reachable step start world →
      Reachable EventLoop.step EventLoop.start world.loop → step world label = some next →
        Reachable EventLoop.step EventLoop.start next.loop :=
    fun _ _ _ there before taken =>
      before.trans (step_reaches (reachable_worldInvariant there) taken)
  refine invariant_along ?_ onward reached
  exact Reachable.refl _

/-- Who is neither unborn nor DEAD is in `m_co_routines`. -/
theorem reachable_listed (reached : Reachable step start world) : world.loop.Listed := by
  have preserved : ∀ (loop : EventLoop Co (ScNode Co)) label next,
      Reachable EventLoop.step EventLoop.start loop → loop.Listed →
        loop.step label = some next → next.Listed :=
    fun _ _ _ there listed taken => listed.step (reachable_loopInvariant there) taken
  exact invariant_along start_listed preserved (reachable_loop reached)

end AutoDrop.CoWorld
