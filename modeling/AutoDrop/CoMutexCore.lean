import AutoDrop.LabelledRun
import AutoDrop.ReentrantLock

/-!
The coroutines of one `AD_EVENT_SC` and one `AD_CO_MUTEX` among them. The loop may resume
any coroutine that is READY while none is running. A coroutine that yields outside
`lock` is woken by its own timer or descriptor at any later time; one that is suspended
inside `lock` is known to `m_wait_co` only. `depth` counts the `lock` calls of a
coroutine that have returned, less its `unlock` calls.
-/

namespace AutoDrop

inductive AcrState
  | ready
  | running
  | suspend
  | dead
deriving DecidableEq, Repr

structure CoMutex (Co : Type*) where
  holder : Option Co
  waitCo : List Co
  selfCount : Nat

structure CoSystem (Co : Type*) where
  mutex : CoMutex Co
  coState : Co → Option AcrState
  currentCo : Option Co
  inLock : Co → Bool
  depth : Co → Nat

inductive CoLabel (Co : Type*)
  | addCo (co : Co)
  | resumeCo (co : Co)
  | yieldCo
  | wake (co : Co)
  | lock
  | retry
  | unlock
  | finish

namespace CoSystem

variable {Co : Type*} [DecidableEq Co]

def start : CoSystem Co where
  mutex := ⟨none, [], 0⟩
  coState := fun _ => none
  currentCo := none
  inLock := fun _ => false
  depth := fun _ => 0

/-- `m_wait_co.push_back` and `yield_co`. -/
def waitInLock (system : CoSystem Co) (co : Co) : CoSystem Co :=
  { system with
    mutex := { system.mutex with waitCo := system.mutex.waitCo ++ [co] }
    coState := Function.update system.coState co (some .suspend)
    currentCo := none
    inLock := Function.update system.inLock co true }

/-- The end of `lock`, behind the waiting loop. -/
def enter (system : CoSystem Co) (co : Co) : CoSystem Co :=
  { system with
    mutex :=
      if system.mutex.holder.isSome then
        { system.mutex with selfCount := system.mutex.selfCount + 1 }
      else { system.mutex with holder := some co }
    inLock := Function.update system.inLock co false
    depth := Function.update system.depth co (system.depth co + 1) }

def leave (mutex : CoMutex Co) : CoMutex Co :=
  if mutex.selfCount = 0 then { mutex with holder := none }
  else { mutex with selfCount := mutex.selfCount - 1 }

/-- The end of `unlock`: a free mutex wakes its first waiter. -/
def wakeFirst (system : CoSystem Co) : CoSystem Co :=
  match system.mutex.holder, system.mutex.waitCo with
  | none, co :: others =>
      { system with
        mutex := { system.mutex with waitCo := others }
        coState := Function.update system.coState co (some .ready) }
  | _, _ => system

def stepCurrent (system : CoSystem Co) (co : Co) : CoLabel Co → Option (CoSystem Co)
  | .yieldCo =>
      if system.inLock co = false then
        some { system with
          coState := Function.update system.coState co (some .suspend)
          currentCo := none }
      else none
  | .lock =>
      if system.inLock co = false then
        if system.mutex.holder ≠ some co ∧ system.mutex.holder.isSome then
          some (system.waitInLock co)
        else some (system.enter co)
      else none
  | .retry =>
      if system.inLock co = true then
        if system.mutex.holder.isSome then some (system.waitInLock co)
        else some (system.enter co)
      else none
  | .unlock =>
      if system.inLock co = false ∧ 0 < system.depth co then
        some (wakeFirst { system with
          mutex := leave system.mutex
          depth := Function.update system.depth co (system.depth co - 1) })
      else none
  | .finish =>
      if system.inLock co = false ∧ system.depth co = 0 then
        some { system with
          coState := Function.update system.coState co (some .dead)
          currentCo := none }
      else none
  | _ => none

def step (system : CoSystem Co) : CoLabel Co → Option (CoSystem Co)
  | .addCo co =>
      if system.coState co = none then
        some { system with coState := Function.update system.coState co (some .ready) }
      else none
  | .resumeCo co =>
      if system.currentCo = none ∧ system.coState co = some .ready then
        some { system with
          coState := Function.update system.coState co (some .running)
          currentCo := some co }
      else none
  | .wake co =>
      if system.coState co = some .suspend ∧ system.inLock co = false then
        some { system with coState := Function.update system.coState co (some .ready) }
      else none
  | label =>
      match system.currentCo with
      | none => none
      | some co => system.stepCurrent co label

end CoSystem

end AutoDrop
