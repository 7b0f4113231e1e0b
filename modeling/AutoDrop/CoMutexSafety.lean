import AutoDrop.CoMutexCore

/-! `AD_CO_MUTEX` is a reentrant lock under every schedule of its coroutines. -/

namespace AutoDrop

open LabelledRun

variable {Co : Type*} [DecidableEq Co]

def CoMutex.abstraction (mutex : CoMutex Co) : ReentrantLock Co :=
  match mutex.holder with
  | none => .free
  | some co => .held co mutex.selfCount

namespace CoSystem

structure LockInvariant (system : CoSystem Co) : Prop where
  free : system.mutex.holder = none → system.mutex.selfCount = 0
  depth : system.depth = system.mutex.abstraction.depthOf
  waiting : ∀ co, system.inLock co = true → system.depth co = 0

theorem start_lockInvariant : LockInvariant (start : CoSystem Co) :=
  ⟨fun _ => rfl, rfl, fun _ impossible => by simp [start] at impossible⟩

theorem depth_eq_zero {system : CoSystem Co} (invariant : LockInvariant system) {co : Co}
    (other : system.mutex.holder ≠ some co) : system.depth co = 0 := by
  rw [invariant.depth, CoMutex.abstraction]
  cases held : system.mutex.holder with
  | none => rfl
  | some owner =>
      have different : co ≠ owner := by
        rintro rfl
        exact other held
      simp [ReentrantLock.depthOf, different]

theorem depth_holder {system : CoSystem Co} (invariant : LockInvariant system) {co : Co}
    (held : system.mutex.holder = some co) : system.depth co = system.mutex.selfCount + 1 := by
  rw [invariant.depth, CoMutex.abstraction, held]
  simp [ReentrantLock.depthOf]

theorem holder_of_depth {system : CoSystem Co} (invariant : LockInvariant system) {co : Co}
    (inside : 0 < system.depth co) : system.mutex.holder = some co := by
  by_contra other
  have none := depth_eq_zero invariant other
  omega

theorem enter_refines {system : CoSystem Co} (invariant : LockInvariant system) {co : Co}
    (available : system.mutex.holder = none ∨ system.mutex.holder = some co) :
    system.mutex.abstraction.acquire co = some (system.enter co).mutex.abstraction := by
  rcases available with none | own
  · simp [CoMutex.abstraction, enter, none, ReentrantLock.acquire, invariant.free none]
  · simp [CoMutex.abstraction, enter, own, ReentrantLock.acquire]

omit [DecidableEq Co] in
theorem holder_of_abstraction {mutex : CoMutex Co} {co : Co} {again : Nat}
    (held : mutex.abstraction = .held co again) : mutex.holder = some co := by
  unfold CoMutex.abstraction at held
  split at held
  · cases held
  · rename_i owner present
    cases held
    exact present

theorem leave_refines {mutex : CoMutex Co} {co : Co} (own : mutex.holder = some co) :
    mutex.abstraction.release co = some (leave mutex).abstraction := by
  rcases Nat.eq_zero_or_pos mutex.selfCount with outermost | nested
  · simp [CoMutex.abstraction, leave, own, outermost, ReentrantLock.release]
  · obtain ⟨again, count⟩ := Nat.exists_eq_add_of_lt nested
    rw [Nat.zero_add] at count
    simp [CoMutex.abstraction, leave, own, count, ReentrantLock.release]

theorem wakeFirst_frame (system : CoSystem Co) :
    system.wakeFirst.mutex.holder = system.mutex.holder ∧
      system.wakeFirst.mutex.selfCount = system.mutex.selfCount ∧
      system.wakeFirst.depth = system.depth ∧ system.wakeFirst.inLock = system.inLock := by
  unfold wakeFirst
  split <;> exact ⟨rfl, rfl, rfl, rfl⟩

/-- What one step does to the lock: nothing, one `acquire` or one `release` by the
running coroutine. -/
inductive LockEffect (system next : CoSystem Co) (label : CoLabel Co) : Prop
  | quiet (holder : next.mutex.holder = system.mutex.holder)
    (selfCount : next.mutex.selfCount = system.mutex.selfCount)
    (depth : next.depth = system.depth) (other : label ≠ .unlock)
  | acquire (co : Co)
    (taken : system.mutex.abstraction.acquire co = some next.mutex.abstraction)
    (depth : next.depth = Function.update system.depth co (system.depth co + 1))
    (held : next.mutex.holder = some co) (other : label ≠ .unlock)
  | release (co : Co) (current : system.currentCo = some co)
    (taken : system.mutex.abstraction.release co = some next.mutex.abstraction)
    (depth : next.depth = Function.update system.depth co (system.depth co - 1))
    (mutex : next.mutex.holder = (leave system.mutex).holder)
    (selfCount : next.mutex.selfCount = (leave system.mutex).selfCount)
    (unlock : label = .unlock)

structure StepSpec (system next : CoSystem Co) (label : CoLabel Co) : Prop where
  effect : LockEffect system next label
  waiting : ∀ co, next.inLock co = true → next.depth co = 0

theorem quiet_spec {system next : CoSystem Co} {label : CoLabel Co}
    (invariant : LockInvariant system) (mutex : next.mutex = system.mutex)
    (depth : next.depth = system.depth) (inLock : next.inLock = system.inLock)
    (other : label ≠ .unlock) : StepSpec system next label := by
  refine ⟨.quiet (by rw [mutex]) (by rw [mutex]) depth other, fun co waits => ?_⟩
  rw [depth]
  exact invariant.waiting co (by rw [← inLock]; exact waits)

theorem waitInLock_spec {system : CoSystem Co} {co : Co} {label : CoLabel Co}
    (invariant : LockInvariant system) (barred : system.mutex.holder ≠ some co)
    (other : label ≠ .unlock) : StepSpec system (system.waitInLock co) label := by
  refine ⟨.quiet rfl rfl rfl other, fun waiter waits => ?_⟩
  by_cases same : waiter = co
  · rw [same]
    exact depth_eq_zero invariant barred
  · apply invariant.waiting waiter
    simpa [waitInLock, Function.update_apply, same] using waits

theorem enter_spec {system : CoSystem Co} {co : Co} {label : CoLabel Co}
    (invariant : LockInvariant system)
    (available : system.mutex.holder = none ∨ system.mutex.holder = some co)
    (other : label ≠ .unlock) : StepSpec system (system.enter co) label := by
  refine ⟨.acquire co (enter_refines invariant available) rfl ?_ other, fun waiter waits => ?_⟩
  · rcases available with none | own
    · simp [enter, none]
    · simp [enter, own]
  · by_cases same : waiter = co
    · simp [enter, same] at waits
    · have before : system.inLock waiter = true := by
        simpa [enter, Function.update_apply, same] using waits
      have outside := invariant.waiting waiter before
      simpa [enter, Function.update_apply, same] using outside

theorem unlock_spec {system : CoSystem Co} {co : Co} (invariant : LockInvariant system)
    (current : system.currentCo = some co) (inside : 0 < system.depth co)
    (outside : system.inLock co = false) :
    StepSpec system (wakeFirst { system with
      mutex := leave system.mutex
      depth := Function.update system.depth co (system.depth co - 1) }) .unlock := by
  have own := holder_of_depth invariant inside
  obtain ⟨holder, selfCount, depth, inLock⟩ := wakeFirst_frame { system with
    mutex := leave system.mutex
    depth := Function.update system.depth co (system.depth co - 1) }
  constructor
  · refine .release co current ?_ depth holder selfCount rfl
    rw [leave_refines own]
    simp only [CoMutex.abstraction, holder, selfCount]
  · intro waiter waits
    rw [inLock] at waits
    rw [depth]
    by_cases same : waiter = co
    · rw [same, outside] at waits
      simp at waits
    · simpa [Function.update_apply, same] using invariant.waiting waiter waits

theorem stepCurrent_spec {system next : CoSystem Co} {co : Co} {label : CoLabel Co}
    (invariant : LockInvariant system) (current : system.currentCo = some co)
    (taken : system.stepCurrent co label = some next) : StepSpec system next label := by
  cases label with
  | addCo | resumeCo | wake => simp [stepCurrent] at taken
  | yieldCo | finish =>
      simp only [stepCurrent] at taken
      split at taken
      · simp only [Option.some.injEq] at taken
        subst next
        exact quiet_spec invariant rfl rfl rfl (by simp)
      · simp at taken
  | lock =>
      simp only [stepCurrent] at taken
      split at taken
      · split at taken
        · rename_i barred
          simp only [Option.some.injEq] at taken
          subst next
          exact waitInLock_spec invariant barred.1 (by simp)
        · rename_i available
          simp only [Option.some.injEq] at taken
          subst next
          refine enter_spec invariant ?_ (by simp)
          by_cases own : system.mutex.holder = some co
          · exact .inr own
          · exact .inl (by simpa [own] using available)
      · simp at taken
  | retry =>
      simp only [stepCurrent] at taken
      split at taken
      · rename_i waits
        split at taken
        · simp only [Option.some.injEq] at taken
          subst next
          refine waitInLock_spec invariant ?_ (by simp)
          intro own
          have inside := depth_holder invariant own
          rw [invariant.waiting co waits] at inside
          omega
        · rename_i available
          simp only [Option.some.injEq] at taken
          subst next
          exact enter_spec invariant (.inl (by simpa using available)) (by simp)
      · simp at taken
  | unlock =>
      simp only [stepCurrent] at taken
      split at taken
      · rename_i guard
        simp only [Option.some.injEq] at taken
        subst next
        exact unlock_spec invariant current guard.2 guard.1
      · simp at taken

theorem step_spec {system next : CoSystem Co} {label : CoLabel Co}
    (invariant : LockInvariant system) (taken : step system label = some next) :
    StepSpec system next label := by
  have running (other : ∀ co, system.currentCo = some co →
      system.stepCurrent co label = some next → StepSpec system next label)
      (same : (match system.currentCo with
        | none => none
        | some co => system.stepCurrent co label) = some next) : StepSpec system next label := by
    cases current : system.currentCo with
    | none => simp [current] at same
    | some co => exact other co current (by simpa [current] using same)
  cases label with
  | addCo co | resumeCo co | wake co =>
      simp only [step] at taken
      split at taken
      · simp only [Option.some.injEq] at taken
        subst next
        exact quiet_spec invariant rfl rfl rfl (by simp)
      · simp at taken
  | yieldCo | lock | retry | unlock | finish =>
      exact running (fun co current taken => stepCurrent_spec invariant current taken) taken

theorem step_lockInvariant {system next : CoSystem Co} {label : CoLabel Co}
    (invariant : LockInvariant system) (taken : step system label = some next) :
    LockInvariant next := by
  obtain ⟨effect, waiting⟩ := step_spec invariant taken
  cases effect with
  | quiet holder selfCount depth other =>
      refine ⟨?_, ?_, waiting⟩
      · rw [holder, selfCount]
        exact invariant.free
      · rw [depth, invariant.depth, CoMutex.abstraction, CoMutex.abstraction, holder, selfCount]
  | acquire co taken depth held other =>
      refine ⟨by simp [held], ?_, waiting⟩
      rw [depth, ReentrantLock.depthOf_acquire taken, invariant.depth]
  | release co current taken depth holder selfCount label =>
      refine ⟨?_, ?_, waiting⟩
      · rw [holder, selfCount, leave]
        split
        · exact fun _ => by assumption
        · intro none
          have outside := invariant.free none
          contradiction
      · rw [depth, ReentrantLock.depthOf_release taken, invariant.depth]

theorem reachable_lockInvariant {system : CoSystem Co} (reached : Reachable step start system) :
    LockInvariant system :=
  invariant_of_reachable start_lockInvariant
    (fun _ _ _ invariant taken => step_lockInvariant invariant taken) reached

theorem exclusive {system : CoSystem Co} (invariant : LockInvariant system) {first second : Co}
    (left : 0 < system.depth first) (right : 0 < system.depth second) : first = second := by
  rw [invariant.depth] at left right
  exact ReentrantLock.depthOf_exclusive left right

theorem freed_iff {system next : CoSystem Co} {label : CoLabel Co}
    (invariant : LockInvariant system) (taken : step system label = some next) :
    system.mutex.holder ≠ none ∧ next.mutex.holder = none ↔
      label = .unlock ∧ ∃ co, system.currentCo = some co ∧ system.depth co = 1 := by
  obtain ⟨effect, _⟩ := step_spec invariant taken
  cases effect with
  | quiet holder selfCount depth other => simp [holder, other]
  | acquire co taken depth held other => simp [held, other]
  | release co current taken depth holder selfCount label =>
      obtain ⟨again, held⟩ := ReentrantLock.release_held taken
      have own := holder_of_abstraction held
      have inside := depth_holder invariant own
      rw [holder, leave, own]
      constructor
      · rintro ⟨_, freed⟩
        split at freed
        · exact ⟨label, co, current, by omega⟩
        · simp at freed
      · rintro ⟨_, other, same, outermost⟩
        obtain rfl : co = other := Option.some.inj (current.symm.trans same)
        rw [if_pos (by omega)]
        simp

/-- At most one coroutine stands between an outermost `lock` and its `unlock`; it is the
holder, `m_self_count` is its depth less one, and only its outermost `unlock` frees. -/
theorem coMutex_reentrant (system : CoSystem Co) (reached : Reachable step start system) :
    (∀ first second, 0 < system.depth first → 0 < system.depth second → first = second) ∧
    (∀ co, 0 < system.depth co →
      system.mutex.holder = some co ∧ system.mutex.selfCount = system.depth co - 1) ∧
    ((∀ co, system.depth co = 0) → system.mutex.holder = none) ∧
    ∀ label next, step system label = some next →
      (system.mutex.holder ≠ none ∧ next.mutex.holder = none ↔
        label = .unlock ∧ ∃ co, system.currentCo = some co ∧ system.depth co = 1) := by
  have invariant := reachable_lockInvariant reached
  refine ⟨fun _ _ left right => exclusive invariant left right, fun co inside => ?_,
    fun outside => ?_, fun _ _ taken => freed_iff invariant taken⟩
  · have own := holder_of_depth invariant inside
    exact ⟨own, by rw [depth_holder invariant own]; omega⟩
  · cases held : system.mutex.holder with
    | none => rfl
    | some co =>
        have inside := depth_holder invariant held
        rw [outside co] at inside
        omega

def contention : List (CoLabel Nat) :=
  [.addCo 0, .addCo 1, .resumeCo 0, .lock, .lock, .yieldCo, .resumeCo 1, .lock, .wake 0,
    .resumeCo 0]

theorem coMutex_reentrant_contention :
    ∃ system, exec step start contention = some system ∧ system.mutex.waitCo = [1] ∧
      system.mutex.holder = some 0 ∧ system.mutex.selfCount = system.depth 0 - 1 := by
  refine ⟨_, rfl, rfl, ?_⟩
  exact (coMutex_reentrant _ ⟨contention, rfl⟩).2.1 0 (by decide)

end CoSystem

end AutoDrop
