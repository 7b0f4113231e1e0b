import AutoDrop.CoMutexSafety

/-!
What a step of a `CoSystem` changes, label by label. A `lock` waits or enters; an `unlock`
may wake a waiter beside what it does to the lock.
-/

namespace AutoDrop.CoSystem

variable {Co : Type*} [DecidableEq Co] {system next : CoSystem Co} {co : Co}

structure Waits (system next : CoSystem Co) (co : Co) : Prop where
  held : system.mutex.holder ≠ none
  barred : system.mutex.holder ≠ some co
  depth : next.depth = system.depth
  inLock : next.inLock = Function.update system.inLock co true
  currentCo : next.currentCo = none
  coState : next.coState = Function.update system.coState co (some .suspend)

structure Enters (system next : CoSystem Co) (co : Co) : Prop where
  available : system.mutex.holder = none ∨ system.mutex.holder = some co
  depth : next.depth = Function.update system.depth co (system.depth co + 1)
  inLock : next.inLock = Function.update system.inLock co false
  currentCo : next.currentCo = system.currentCo
  coState : next.coState = system.coState

structure Leaves (system next : CoSystem Co) (co : Co) : Prop where
  inside : 0 < system.depth co
  depth : next.depth = Function.update system.depth co (system.depth co - 1)
  inLock : next.inLock = system.inLock
  currentCo : next.currentCo = system.currentCo
  coState : ∀ other, next.coState other = none → system.coState other = none

structure Untouched (system next : CoSystem Co) : Prop where
  mutex : next.mutex = system.mutex
  depth : next.depth = system.depth
  inLock : next.inLock = system.inLock
  coState : ∀ other, next.coState other = none → system.coState other = none

theorem update_some_ne_none {coState : Co → Option AcrState} {state : AcrState} {other : Co}
    (unborn : Function.update coState co (some state) other = none) : coState other = none := by
  by_cases same : other = co
  · simp [same] at unborn
  · simpa [Function.update_apply, same] using unborn

theorem lock_cases (invariant : LockInvariant system) (current : system.currentCo = some co)
    (taken : step system (if system.inLock co then .retry else .lock) = some next) :
    Waits system next co ∧ next.inLock co = true ∨
      Enters system next co ∧ next.inLock co = false := by
  split at taken
  · rename_i waiting
    simp only [step, current, stepCurrent, waiting, ↓reduceIte] at taken
    split at taken
    · rename_i held
      simp only [Option.some.injEq] at taken
      subst next
      have barred : system.mutex.holder ≠ some co := by
        intro own
        have inside := depth_holder invariant own
        rw [invariant.waiting co waiting] at inside
        omega
      exact .inl ⟨⟨by simpa [Option.isSome_iff_ne_none] using held, barred, rfl, rfl, rfl, rfl⟩,
        by simp [waitInLock]⟩
    · rename_i free
      simp only [Option.some.injEq] at taken
      subst next
      exact .inr ⟨⟨.inl (by simpa using free), rfl, rfl, rfl, rfl⟩, by simp [enter]⟩
  · rename_i outside
    simp only [Bool.not_eq_true] at outside
    simp only [step, current, stepCurrent, outside, ↓reduceIte] at taken
    split at taken
    · rename_i barred
      simp only [Option.some.injEq] at taken
      subst next
      exact .inl ⟨⟨by simpa [Option.isSome_iff_ne_none] using barred.2, barred.1, rfl, rfl, rfl,
        rfl⟩, by simp [waitInLock]⟩
    · rename_i available
      simp only [Option.some.injEq] at taken
      subst next
      refine .inr ⟨⟨?_, rfl, rfl, rfl, rfl⟩, by simp [enter]⟩
      by_cases own : system.mutex.holder = some co
      · exact .inr own
      · exact .inl (by simpa [own] using available)

theorem wakeFirst_coState {other : Co} (unborn : system.wakeFirst.coState other = none) :
    system.coState other = none := by
  unfold wakeFirst at unborn
  split at unborn
  · exact update_some_ne_none unborn
  · exact unborn

theorem wakeFirst_currentCo : system.wakeFirst.currentCo = system.currentCo := by
  unfold wakeFirst
  split <;> rfl

theorem unlock_leaves (current : system.currentCo = some co)
    (taken : step system .unlock = some next) : Leaves system next co := by
  simp only [step, current] at taken
  simp only [stepCurrent] at taken
  split at taken
  · rename_i guard
    simp only [Option.some.injEq] at taken
    subst next
    obtain ⟨_, _, depth, inLock⟩ := wakeFirst_frame { system with
      mutex := leave system.mutex
      depth := Function.update system.depth co (system.depth co - 1) }
    refine ⟨guard.2, depth, inLock, wakeFirst_currentCo, fun other unborn => ?_⟩
    have before := wakeFirst_coState unborn
    exact before
  · cases taken

theorem Leaves.freed (leaves : Leaves system next co) (invariant : LockInvariant system)
    (kept : LockInvariant next) (outermost : system.depth co = 1) : next.mutex.holder = none := by
  cases held : next.mutex.holder with
  | none => rfl
  | some owner =>
      have inside := depth_holder kept held
      rw [leaves.depth] at inside
      by_cases same : owner = co
      · simp [same, outermost] at inside
      · simp only [Function.update_apply, same, ↓reduceIte] at inside
        have own := holder_of_depth invariant (show 0 < system.depth co by omega)
        have other := holder_of_depth invariant (show 0 < system.depth owner by omega)
        exact absurd (Option.some.inj (other.symm.trans own)) same

theorem setState_untouched (state : AcrState) (current : Option Co) :
    Untouched system { system with
      coState := Function.update system.coState co (some state)
      currentCo := current } :=
  ⟨rfl, rfl, rfl, fun _ unborn => update_some_ne_none unborn⟩

theorem addCo_untouched (taken : step system (.addCo co) = some next) :
    Untouched system next ∧ system.coState co = none ∧ next.coState co ≠ none ∧
      next.currentCo = system.currentCo := by
  simp only [step] at taken
  split at taken
  · rename_i unborn
    simp only [Option.some.injEq] at taken
    subst next
    exact ⟨setState_untouched _ _, unborn, by simp, rfl⟩
  · cases taken

theorem wake_untouched (taken : step system (.wake co) = some next) :
    Untouched system next ∧ next.currentCo = system.currentCo := by
  simp only [step] at taken
  split at taken
  · simp only [Option.some.injEq] at taken
    subst next
    exact ⟨setState_untouched _ _, rfl⟩
  · cases taken

theorem resumeCo_untouched (taken : step system (.resumeCo co) = some next) :
    Untouched system next ∧ system.currentCo = none ∧ next.currentCo = some co ∧
      next.coState co ≠ none := by
  simp only [step] at taken
  split at taken
  · rename_i guard
    simp only [Option.some.injEq] at taken
    subst next
    exact ⟨setState_untouched _ _, guard.1, rfl, by simp⟩
  · cases taken

theorem yieldCo_untouched (current : system.currentCo = some co)
    (taken : step system .yieldCo = some next) :
    Untouched system next ∧ next.currentCo = none := by
  simp only [step, current, stepCurrent] at taken
  split at taken
  · simp only [Option.some.injEq] at taken
    subst next
    exact ⟨setState_untouched _ _, rfl⟩
  · cases taken

theorem finish_untouched (current : system.currentCo = some co)
    (taken : step system .finish = some next) :
    Untouched system next ∧ next.currentCo = none := by
  simp only [step, current, stepCurrent] at taken
  split at taken
  · simp only [Option.some.injEq] at taken
    subst next
    exact ⟨setState_untouched _ _, rfl⟩
  · cases taken

end AutoDrop.CoSystem
