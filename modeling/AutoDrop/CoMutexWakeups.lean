import AutoDrop.CoMutexCore

/-!
No wakeup of `AD_CO_MUTEX` is lost. A coroutine that `unlock` popped from `m_wait_co` stays
inside `lock` until it retries, and it is the one who keeps the chain of wakes alive: it
takes the free mutex, or it finds it taken and queues itself again behind the new holder.
-/

namespace AutoDrop.CoSystem

open LabelledRun

variable {Co : Type*} [DecidableEq Co] {system next : CoSystem Co} {co : Co}

def SuspendedInLock (system : CoSystem Co) (co : Co) : Prop :=
  system.inLock co = true ∧ system.coState co = some .suspend

/-- Popped from `m_wait_co`, with the test of `m_holder` still to come. -/
def Woken (system : CoSystem Co) (co : Co) : Prop :=
  system.inLock co = true ∧ co ∉ system.mutex.waitCo ∧
    (system.coState co = some .ready ∨
      system.coState co = some .running ∧ system.currentCo = some co)

structure WakeInvariant (system : CoSystem Co) : Prop where
  running : ∀ co, system.currentCo = some co → system.coState co = some .running
  queued : ∀ co, SuspendedInLock system co → system.mutex.waitCo.count co = 1
  waiting : ∀ co ∈ system.mutex.waitCo, SuspendedInLock system co
  pending : system.mutex.holder = none → ∀ co, SuspendedInLock system co →
    ∃ woken, Woken system woken

theorem start_wakeInvariant : WakeInvariant (start : CoSystem Co) where
  running := by simp [start]
  queued := by simp [SuspendedInLock, start]
  waiting := by simp [start]
  pending := by simp [SuspendedInLock, start]

theorem WakeInvariant.not_waiting (invariant : WakeInvariant system)
    (outside : ¬SuspendedInLock system co) : co ∉ system.mutex.waitCo :=
  fun waits => outside (invariant.waiting co waits)

theorem WakeInvariant.move (invariant : WakeInvariant system) {state : AcrState}
    {currentCo : Option Co} (outside : ¬SuspendedInLock system co)
    (stays : system.inLock co = true → state ≠ .suspend)
    (current : ∀ other, currentCo = some other →
      Function.update system.coState co (some state) other = some .running)
    (kept : ∀ woken, Woken system woken → Woken { system with
      coState := Function.update system.coState co (some state), currentCo } woken) :
    WakeInvariant { system with
      coState := Function.update system.coState co (some state), currentCo } := by
  have same (other : Co) : SuspendedInLock { system with
      coState := Function.update system.coState co (some state), currentCo } other ↔
        SuspendedInLock system other := by
    by_cases moved : other = co
    · subst other
      simp only [SuspendedInLock, Function.update_self, Option.some.injEq]
      constructor
      · rintro ⟨inside, suspended⟩
        exact absurd suspended (stays inside)
      · exact fun inside => absurd inside outside
    · simp [SuspendedInLock, moved]
  refine ⟨current, fun other suspended => ?_, fun other waits => ?_, fun free other suspended => ?_⟩
  · exact invariant.queued other ((same other).mp suspended)
  · exact (same other).mpr (invariant.waiting other waits)
  · obtain ⟨woken, awake⟩ := invariant.pending free other ((same other).mp suspended)
    exact ⟨woken, kept woken awake⟩

theorem waitInLock_wakeInvariant (invariant : WakeInvariant system)
    (outside : ¬SuspendedInLock system co) (held : system.mutex.holder.isSome = true) :
    WakeInvariant (system.waitInLock co) := by
  have absent := invariant.not_waiting outside
  refine ⟨by simp [waitInLock], fun other suspended => ?_, fun other waits => ?_,
    fun free => ?_⟩
  · simp only [waitInLock, List.count_append]
    by_cases same : other = co
    · subst other
      rw [List.count_eq_zero_of_not_mem absent]
      simp
    · have before : SuspendedInLock system other := by
        simpa [SuspendedInLock, waitInLock, Function.update_apply, same] using suspended
      rw [invariant.queued other before, List.count_eq_zero_of_not_mem (by simp [same])]
  · by_cases same : other = co
    · simp [SuspendedInLock, waitInLock, same]
    · have before : other ∈ system.mutex.waitCo := by simpa [waitInLock, same] using waits
      simpa [SuspendedInLock, waitInLock, Function.update_apply, same]
        using invariant.waiting other before
  · simp only [waitInLock] at free
    simp [free] at held

theorem enter_wakeInvariant (invariant : WakeInvariant system)
    (current : system.currentCo = some co) : WakeInvariant (system.enter co) := by
  have state := invariant.running co current
  have same (other : Co) :
      SuspendedInLock (system.enter co) other ↔ SuspendedInLock system other := by
    by_cases moved : other = co
    · simp [SuspendedInLock, enter, moved, state]
    · simp [SuspendedInLock, enter, moved]
  have queue : (system.enter co).mutex.waitCo = system.mutex.waitCo := by
    simp only [enter]
    split <;> rfl
  refine ⟨invariant.running, fun other suspended => ?_, fun other waits => ?_, fun free => ?_⟩
  · rw [queue]
    exact invariant.queued other ((same other).mp suspended)
  · rw [queue] at waits
    exact (same other).mpr (invariant.waiting other waits)
  · simp only [enter] at free
    split at free
    · rename_i held
      have unheld : system.mutex.holder = none := free
      simp [unheld] at held
    · simp at free

theorem wakeFirst_wakeInvariant {released : CoSystem Co}
    (running : ∀ co, released.currentCo = some co → released.coState co = some .running)
    (queued : ∀ co, SuspendedInLock released co → released.mutex.waitCo.count co = 1)
    (waiting : ∀ co ∈ released.mutex.waitCo, SuspendedInLock released co) :
    WakeInvariant released.wakeFirst := by
  unfold wakeFirst
  split
  · rename_i first others free queue
    have suspended := waiting first (by simp [queue])
    have once := queued first suspended
    rw [queue, List.count_cons_self] at once
    have absent : first ∉ others := List.count_eq_zero.mp (by omega)
    have same (other : Co) : SuspendedInLock { released with
        mutex := { released.mutex with waitCo := others }
        coState := Function.update released.coState first (some .ready) } other ↔
          other ≠ first ∧ SuspendedInLock released other := by
      by_cases moved : other = first
      · simp [SuspendedInLock, moved]
      · simp [SuspendedInLock, moved]
    refine ⟨fun other current => ?_, fun other inside => ?_, fun other waits => ?_,
      fun _ _ _ => ⟨first, suspended.1, absent, .inl (by simp)⟩⟩
    · have state := running other current
      have apart : other ≠ first := by
        rintro rfl
        simp [suspended.2] at state
      simpa [Function.update_apply, apart] using state
    · obtain ⟨apart, before⟩ := (same other).mp inside
      have count := queued other before
      rw [queue, List.count_cons_of_ne (Ne.symm apart)] at count
      exact count
    · have apart : other ≠ first := fun moved => absent (moved ▸ waits)
      exact (same other).mpr
        ⟨apart, waiting other (by simp [queue, show other ∈ others from waits])⟩
  · rename_i blocked
    refine ⟨running, queued, waiting, fun free other suspended => ?_⟩
    -- a free mutex without a woken coroutine has nobody in its queue
    have once := queued other suspended
    cases queue : released.mutex.waitCo with
    | nil => simp [queue] at once
    | cons first others => exact absurd queue (blocked first others free)

theorem stepCurrent_wakeInvariant {label : CoLabel Co} (invariant : WakeInvariant system)
    (current : system.currentCo = some co) (taken : system.stepCurrent co label = some next) :
    WakeInvariant next := by
  have state := invariant.running co current
  have outside : ¬SuspendedInLock system co := fun suspended => by simp [suspended.2] at state
  cases label with
  | addCo | resumeCo | wake => simp [stepCurrent] at taken
  | yieldCo | finish =>
      simp only [stepCurrent] at taken
      split at taken
      · rename_i guard
        simp only [Option.some.injEq] at taken
        subst next
        have away : system.inLock co = false := by first | exact guard | exact guard.1
        refine invariant.move outside (by simp [away]) (by simp) fun woken awake => ?_
        have apart : woken ≠ co := fun same => by simp [← same, awake.1] at away
        obtain ⟨inside, popped, ready | ⟨_, other⟩⟩ := awake
        · exact ⟨inside, popped, .inl (by simpa [Function.update_apply, apart] using ready)⟩
        · exact absurd (Option.some.inj (other.symm.trans current)) apart
      · cases taken
  | lock =>
      simp only [stepCurrent] at taken
      split at taken
      · split at taken
        · rename_i barred
          simp only [Option.some.injEq] at taken
          subst next
          exact waitInLock_wakeInvariant invariant outside barred.2
        · simp only [Option.some.injEq] at taken
          subst next
          exact enter_wakeInvariant invariant current
      · cases taken
  | retry =>
      simp only [stepCurrent] at taken
      split at taken
      · split at taken
        · rename_i held
          simp only [Option.some.injEq] at taken
          subst next
          exact waitInLock_wakeInvariant invariant outside held
        · simp only [Option.some.injEq] at taken
          subst next
          exact enter_wakeInvariant invariant current
      · cases taken
  | unlock =>
      simp only [stepCurrent] at taken
      split at taken
      · simp only [Option.some.injEq] at taken
        subst next
        have queue : (leave system.mutex).waitCo = system.mutex.waitCo := by
          unfold leave
          split <;> rfl
        refine wakeFirst_wakeInvariant invariant.running (fun other suspended => ?_)
          fun other waits => ?_
        · rw [queue]
          exact invariant.queued other suspended
        · rw [queue] at waits
          exact invariant.waiting other waits
      · cases taken

theorem running_wakeInvariant {label : CoLabel Co} (invariant : WakeInvariant system)
    (taken : (match system.currentCo with
      | none => none
      | some co => system.stepCurrent co label) = some next) : WakeInvariant next := by
  cases current : system.currentCo with
  | none => simp [current] at taken
  | some co => exact stepCurrent_wakeInvariant invariant current (by simpa [current] using taken)

theorem step_wakeInvariant {label : CoLabel Co} (invariant : WakeInvariant system)
    (taken : step system label = some next) : WakeInvariant next := by
  cases label with
  | addCo co =>
      simp only [step] at taken
      split at taken
      · rename_i unborn
        simp only [Option.some.injEq] at taken
        subst next
        refine invariant.move (fun suspended => ?_) (by simp) (fun other current => ?_)
          fun woken awake => ?_
        · simp [suspended.2] at unborn
        · have state := invariant.running other current
          have apart : other ≠ co := fun same => by simp [same, unborn] at state
          simpa [Function.update_apply, apart] using state
        · have apart : woken ≠ co := fun same => by simp [Woken, same, unborn] at awake
          simpa [Woken, Function.update_apply, apart] using awake
      · cases taken
  | resumeCo co =>
      simp only [step] at taken
      split at taken
      · rename_i guard
        simp only [Option.some.injEq] at taken
        subst next
        refine invariant.move (fun suspended => ?_) (by simp) (fun other current => ?_)
          fun woken awake => ?_
        · simp [suspended.2] at guard
        · simp [← Option.some.inj current]
        · obtain ⟨inside, popped, ready | ⟨_, current⟩⟩ := awake
          · by_cases same : woken = co
            · exact ⟨inside, popped, .inr (by simp [same])⟩
            · exact ⟨inside, popped, .inl (by simpa [Function.update_apply, same] using ready)⟩
          · simp [guard.1] at current
      · cases taken
  | wake co =>
      simp only [step] at taken
      split at taken
      · rename_i guard
        simp only [Option.some.injEq] at taken
        subst next
        refine invariant.move (fun suspended => ?_) (by simp) (fun other current => ?_)
          fun woken awake => ?_
        · simp [suspended.1] at guard
        · have state := invariant.running other current
          have apart : other ≠ co := fun same => by simp [same, guard.1] at state
          simpa [Function.update_apply, apart] using state
        · have apart : woken ≠ co := fun same => by simp [same, guard.2, Woken] at awake
          simpa [Woken, Function.update_apply, apart] using awake
      · cases taken
  | yieldCo | lock | retry | unlock | finish => exact running_wakeInvariant invariant taken

theorem reachable_wakeInvariant (reached : Reachable step start system) :
    WakeInvariant system :=
  invariant_of_reachable start_wakeInvariant
    (fun _ _ _ invariant taken => step_wakeInvariant invariant taken) reached

/-- A coroutine suspended inside `lock` is queued exactly once, and a free mutex that
somebody waits for has a popped coroutine that did not retry yet. That one is READY, from
its pop to the resume whose next action is the retry. -/
theorem reachable_noLostWakeup (system : CoSystem Co) (reached : Reachable step start system) :
    (∀ co, SuspendedInLock system co → system.mutex.waitCo.count co = 1) ∧
    (system.mutex.holder = none → (∃ co, SuspendedInLock system co) →
      ∃ woken, system.inLock woken = true ∧ woken ∉ system.mutex.waitCo ∧
        (system.coState woken = some .ready ∨ system.currentCo = some woken)) ∧
    (system.mutex.holder = none → (∃ co, SuspendedInLock system co) →
      (∀ co, system.currentCo = some co → system.inLock co = false) →
      ∃ woken, system.inLock woken = true ∧ woken ∉ system.mutex.waitCo ∧
        system.coState woken = some .ready) := by
  have invariant := reachable_wakeInvariant reached
  refine ⟨invariant.queued, ?_, ?_⟩
  · rintro free ⟨co, suspended⟩
    obtain ⟨woken, inside, popped, ready | ⟨_, current⟩⟩ := invariant.pending free co suspended
    · exact ⟨woken, inside, popped, .inl ready⟩
    · exact ⟨woken, inside, popped, .inr current⟩
  · rintro free ⟨co, suspended⟩ between
    obtain ⟨woken, inside, popped, ready | ⟨_, current⟩⟩ := invariant.pending free co suspended
    · exact ⟨woken, inside, popped, ready⟩
    · simp [between woken current] at inside

def twoWaiters : List (CoLabel Nat) :=
  [.addCo 0, .addCo 1, .addCo 2, .resumeCo 0, .lock, .yieldCo, .resumeCo 1, .lock, .resumeCo 2,
    .lock, .wake 0, .resumeCo 0, .unlock]

theorem reachable_noLostWakeup_twoWaiters :
    ∃ system, exec step start twoWaiters = some system ∧ system.mutex.holder = none ∧
      system.mutex.waitCo = [2] ∧ ∃ woken, woken ∉ system.mutex.waitCo ∧
        system.inLock woken = true ∧ system.coState woken = some .ready := by
  obtain ⟨system, run⟩ := Option.isSome_iff_exists.mp
    (show (exec step (start : CoSystem Nat) twoWaiters).isSome by rfl)
  have seen : (exec step (start : CoSystem Nat) twoWaiters).map (fun system =>
      (system.mutex.holder, system.mutex.waitCo, system.inLock 2, system.coState 2,
        system.currentCo, system.inLock 0)) =
        some (none, [2], true, some .suspend, some 0, false) := by rfl
  simp only [run, Option.map_some, Option.some.injEq, Prod.mk.injEq] at seen
  obtain ⟨free, queue, inside, suspended, current, outside⟩ := seen
  have between (co : Nat) (running : system.currentCo = some co) : system.inLock co = false := by
    rw [Option.some.inj (running.symm.trans current)]
    exact outside
  obtain ⟨woken, waits, popped, ready⟩ :=
    (reachable_noLostWakeup system ⟨twoWaiters, run⟩).2.2 free ⟨2, inside, suspended⟩ between
  exact ⟨system, run, free, queue, woken, popped, waits, ready⟩

end AutoDrop.CoSystem
