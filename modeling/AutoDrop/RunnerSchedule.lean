import AutoDrop.RunnerLocks

/-!
A coroutine of a runner waits for the mutex once: behind its first `lock_sm` it runs from
hook to hook without a yield, so no other coroutine gets the mutex in between.
-/

namespace AutoDrop

open LabelledRun CoSystem

namespace Pc

/-- Between an acquired mutex and the next yield or the end of the coroutine. -/
def unbroken : Pc → Bool
  | register | registered | beginUnlock | ret _ => true
  | call (.first _) | call (.enter _) | call (.act _) => true
  | _ => false

def mayWait : Pc → Bool
  | begin | call (.exit _ _) | call (.check _ _) => true
  | _ => false

/-- Between two hooks, where the mutex is free. -/
def unlocked : Pc → Bool
  | call (.enter _) | call (.act _) => true
  | _ => false

theorem unbroken_of_unlocked {pc : Pc} (free : pc.unlocked = true) : pc.unbroken = true := by
  unfold unlocked at free
  split at free
  · rfl
  · rfl
  · cases free

theorem locks_of_unlocked {pc : Pc} (free : pc.unlocked = true) : pc.locks = 0 := by
  unfold unlocked at free
  split at free
  · rfl
  · rfl
  · cases free

theorem mayWait_not_unbroken {pc : Pc} (waits : pc.mayWait = true) : pc.unbroken = false := by
  unfold mayWait at waits
  split at waits
  · rfl
  · rfl
  · rfl
  · cases waits

end Pc

namespace Runner

structure Scheduled (runner : Runner) : Prop where
  lockMatch : LockMatch runner
  unbroken : ∀ co, (runner.pc co).unbroken = true → runner.system.currentCo = some co
  unlocked : ∀ co, (runner.pc co).unlocked = true → runner.system.mutex.holder = none
  waits : ∀ co, runner.system.inLock co = true → (runner.pc co).mayWait = true

variable {config : SmConfig} {runner next : Runner} {co : Nat}

theorem start_scheduled (started : start config = some runner) : Scheduled runner := by
  have lockMatch := start_lockMatch started
  simp only [start, Option.map_eq_some_iff] at started
  obtain ⟨state, _, same⟩ := started
  subst runner
  refine ⟨lockMatch, fun co unbroken => ?_, fun co free => rfl, fun co waiting => ?_⟩
  · by_cases first : co = 0
    · simp [first, Pc.unbroken] at unbroken
    · simp [first, Pc.unbroken] at unbroken
  · cases waiting

theorem Scheduled.alone (scheduled : Scheduled runner)
    (current : runner.system.currentCo = some co) {other : Nat} (different : other ≠ co) :
    (runner.pc other).unbroken = false := by
  by_contra unbroken
  have same := scheduled.unbroken other (by simpa using unbroken)
  exact different (Option.some.inj (same.symm.trans current))

theorem Scheduled.not_unlocked (scheduled : Scheduled runner)
    (current : runner.system.currentCo = some co) {other : Nat} (different : other ≠ co) :
    (runner.pc other).unlocked = false := by
  by_contra free
  have unbroken := Pc.unbroken_of_unlocked (by simpa using free)
  rw [scheduled.alone current different] at unbroken
  cases unbroken

theorem Scheduled.resting (scheduled : Scheduled runner)
    (current : runner.system.currentCo = some co)
    (available : runner.system.mutex.holder = none ∨ runner.system.mutex.holder = some co)
    {other : Nat} (different : other ≠ co) :
    (runner.pc other).unbroken = false ∧ (runner.pc other).locks = 0 := by
  refine ⟨scheduled.alone current different, ?_⟩
  rw [← scheduled.lockMatch.depth other]
  apply depth_eq_zero scheduled.lockMatch.lock
  rcases available with none | own
  · simp [none]
  · rw [own]
    intro same
    exact different (Option.some.inj same).symm

theorem Scheduled.mayWait_of_waits (scheduled : Scheduled runner) {system : CoSystem Nat}
    (waits : Waits runner.system system co)
    (locking : runner.pc co = .begin ∨ runner.pc co = .register ∨
      ∃ hook, runner.pc co = .call hook) : (runner.pc co).mayWait = true := by
  have outside : (runner.pc co).locks = 0 := by
    rw [← scheduled.lockMatch.depth co]
    exact depth_eq_zero scheduled.lockMatch.lock waits.barred
  have held : (runner.pc co).unlocked = false := by
    by_contra free
    exact waits.held (scheduled.unlocked co (by simpa using free))
  rcases locking with place | place | ⟨hook, place⟩
  · rw [place]
    rfl
  · rw [place] at outside
    cases outside
  · rw [place] at outside held ⊢
    cases hook with
    | first => cases outside
    | enter | act => cases held
    | exit | check => rfl

theorem Scheduled.moved (scheduled : Scheduled runner) {pc : Pc}
    (current : runner.system.currentCo = some co) (lockMatch : LockMatch next)
    (moves : next.pc = Function.update runner.pc co pc)
    (currentCo : next.system.currentCo = runner.system.currentCo)
    (unlocked : pc.unlocked = true → next.system.mutex.holder = none)
    (waits : ∀ other, next.system.inLock other = true →
      other ≠ co ∧ runner.system.inLock other = true) : Scheduled next := by
  refine ⟨lockMatch, fun other unbroken => ?_, fun other free => ?_, fun other waiting => ?_⟩
  · by_cases self : other = co
    · rw [self, currentCo, current]
    · rw [moves, Function.update_of_ne self, scheduled.alone current self] at unbroken
      cases unbroken
  · by_cases self : other = co
    · rw [moves, self, Function.update_self] at free
      exact unlocked free
    · rw [moves, Function.update_of_ne self, scheduled.not_unlocked current self] at free
      cases free
  · obtain ⟨different, before⟩ := waits other waiting
    rw [moves, Function.update_of_ne different]
    exact scheduled.waits other before

theorem Scheduled.paused (scheduled : Scheduled runner) (lockMatch : LockMatch next)
    (places : next.pc = runner.pc) (broken : ∀ other, (runner.pc other).unbroken = false)
    (waits : ∀ other, next.system.inLock other = true →
      runner.system.inLock other = true ∨ (runner.pc other).mayWait = true) :
    Scheduled next := by
  refine ⟨lockMatch, fun other unbroken => ?_, fun other free => ?_, fun other waiting => ?_⟩
  · rw [places, broken other] at unbroken
    cases unbroken
  · rw [places] at free
    have unbroken := Pc.unbroken_of_unlocked free
    rw [broken other] at unbroken
    cases unbroken
  · rw [places]
    rcases waits other waiting with before | waits
    · exact scheduled.waits other before
    · exact waits

theorem Scheduled.broken (scheduled : Scheduled runner)
    (current : runner.system.currentCo = some co) (yields : (runner.pc co).unbroken = false)
    (other : Nat) : (runner.pc other).unbroken = false := by
  by_cases self : other = co
  · rw [self]
    exact yields
  · exact scheduled.alone current self

theorem Scheduled.not_inLock (scheduled : Scheduled runner)
    (held : (runner.pc co).mayWait = false) : runner.system.inLock co = false := by
  by_contra waiting
  have waits := scheduled.waits co (by simpa using waiting)
  rw [held] at waits
  cases waits

theorem acquire_scheduled {locked : Runner → Runner} (scheduled : Scheduled runner)
    (current : runner.system.currentCo = some co)
    (locking : runner.pc co = .begin ∨ runner.pc co = .register ∨
      ∃ hook, runner.pc co = .call hook)
    (moves : ∀ tried, ∃ pc, MovesTo tried (locked tried) co pc ∧ pc.unlocked = false)
    (lockMatch : LockMatch next) (taken : runner.acquire co locked = some next) :
    Scheduled next := by
  obtain ⟨label, system, stepped, outcome⟩ := acquire_cases scheduled.lockMatch current taken
  rcases outcome with ⟨waits, same⟩ | ⟨enters, same⟩
  · have waiting := scheduled.mayWait_of_waits waits locking
    subst next
    refine scheduled.paused lockMatch rfl ?_ (fun other locked => ?_)
    · exact scheduled.broken current (Pc.mayWait_not_unbroken waiting)
    · by_cases self : other = co
      · rw [self]
        exact .inr waiting
      · rw [waits.inLock, Function.update_of_ne self] at locked
        exact .inl locked
  · obtain ⟨pc, moved, held⟩ := moves { runner with system := system }
    subst next
    apply scheduled.moved current lockMatch moved.pc
    · rw [moved.system]
      exact enters.currentCo
    · intro free
      rw [held] at free
      cases free
    · intro other waiting
      rw [moved.system] at waiting
      by_cases self : other = co
      · rw [self, enters.inLock, Function.update_self] at waiting
        cases waiting
      · rw [enters.inLock, Function.update_of_ne self] at waiting
        exact ⟨self, waiting⟩

theorem release_scheduled {unlocked : Runner → Runner} (scheduled : Scheduled runner)
    (current : runner.system.currentCo = some co) (held : (runner.pc co).mayWait = false)
    (moves : ∀ left, ∃ pc, MovesTo left (unlocked left) co pc ∧
      pc.locks + 1 = (runner.pc co).locks)
    (lockMatch : LockMatch next) (taken : runner.release unlocked = some next) :
    Scheduled next := by
  obtain ⟨system, stepped, leaves, same⟩ := release_cases current taken
  obtain ⟨pc, moved, fewer⟩ := moves { runner with system := system }
  subst next
  apply scheduled.moved current lockMatch moved.pc
  · rw [moved.system]
    exact leaves.currentCo
  · intro free
    rw [moved.system]
    have lock := scheduled.lockMatch.lock
    apply leaves.freed lock (step_lockInvariant lock stepped)
    rw [scheduled.lockMatch.depth co, ← fewer, Pc.locks_of_unlocked free]
  · intro other waiting
    rw [moved.system] at waiting
    have before : runner.system.inLock other = true := leaves.inLock ▸ waiting
    refine ⟨?_, before⟩
    rintro rfl
    rw [scheduled.not_inLock held] at before
    cases before

theorem Scheduled.local_move (scheduled : Scheduled runner) {pc : Pc}
    (current : runner.system.currentCo = some co) (held : (runner.pc co).mayWait = false)
    (moved : MovesTo runner next co pc) (locked : pc.unlocked = false)
    (lockMatch : LockMatch next) : Scheduled next := by
  have system := moved.system
  apply scheduled.moved current lockMatch moved.pc
  · rw [system]
  · intro free
    rw [locked] at free
    cases free
  · intro other waiting
    rw [system] at waiting
    refine ⟨?_, waiting⟩
    rintro rfl
    rw [scheduled.not_inLock held] at waiting
    cases waiting

theorem changeState_unlocked (runner : Runner) (co : Nat) (state : Option SmState) :
    ∃ pc, MovesTo runner (runner.changeState co state) co pc ∧ pc.unlocked = false := by
  cases state with
  | none => exact ⟨_, ⟨rfl, rfl⟩, rfl⟩
  | some next => exact ⟨_, ⟨rfl, rfl⟩, rfl⟩

theorem advance_scheduled (scheduled : Scheduled runner)
    (current : runner.system.currentCo = some co)
    (taken : runner.advance config co = some next) : Scheduled next := by
  have lockMatch := advance_lockMatch scheduled.lockMatch current taken
  cases place : runner.pc co with
  | begin =>
      simp only [advance, place] at taken
      refine acquire_scheduled scheduled current (.inl place) (fun tried => ?_) lockMatch taken
      exact ⟨_, ⟨rfl, rfl⟩, rfl⟩
  | register =>
      simp only [advance, place] at taken
      refine acquire_scheduled scheduled current (.inr (.inl place)) (fun tried => ?_) lockMatch
        taken
      exact ⟨_, ⟨rfl, rfl⟩, rfl⟩
  | registered | beginUnlock =>
      simp only [advance, place] at taken
      refine release_scheduled scheduled current (by rw [place]; rfl) (fun left => ?_) lockMatch
        taken
      exact ⟨_, ⟨rfl, rfl⟩, by rw [place]; rfl⟩
  | procEvent event =>
      simp only [advance, place, Option.some.injEq] at taken
      obtain ⟨pc, moved, locked⟩ := changeState_unlocked runner co
        (config.getEventState runner.nextId runner.currentState event)
      subst next
      exact scheduled.local_move current (by rw [place]; rfl) moved locked lockMatch
  | call hook =>
      simp only [advance, place] at taken
      refine acquire_scheduled scheduled current (.inr (.inr ⟨hook, place⟩)) (fun tried => ?_)
        lockMatch taken
      refine ⟨calling hook, ⟨rfl, rfl⟩, ?_⟩
      unfold calling
      split <;> rfl
  | ret hook =>
      simp only [advance, place] at taken
      refine release_scheduled scheduled current (by rw [place]; rfl) (fun left => ?_) lockMatch
        taken
      obtain ⟨pc, moved, _, fewer⟩ := afterHook_movesTo config left co hook
      exact ⟨pc, moved, by rw [place]; exact fewer⟩
  | timer =>
      simp only [advance, place, Option.some.injEq] at taken
      subst next
      exact scheduled.local_move current (by rw [place]; rfl) ⟨rfl, rfl⟩ rfl lockMatch
  | done =>
      simp only [advance, place] at taken
      obtain ⟨stepped, frame⟩ := schedule_eq_some.mp taken
      obtain ⟨untouched, _⟩ := finish_untouched current stepped
      refine scheduled.paused lockMatch (by rw [frame]) ?_ (fun other waiting => .inl ?_)
      · exact scheduled.broken current (by rw [place]; rfl)
      · rw [← untouched.inLock]
        exact waiting
  | lua | timerLua =>
      simp only [advance, place] at taken
      cases taken

theorem broken_of_inLua {pc : Pc} (inLua : pc.inLua = true) : pc.unbroken = false := by
  unfold Pc.inLua at inLua
  split at inLua
  · rfl
  · rfl
  · cases inLua

theorem stepCurrent_scheduled {label : RunnerLabel} (scheduled : Scheduled runner)
    (current : runner.system.currentCo = some co)
    (taken : runner.stepCurrent config co label = some next) : Scheduled next := by
  have lockMatch := stepCurrent_lockMatch scheduled.lockMatch current taken
  rcases stepCurrent_cases taken with ⟨_, advanced⟩ | ⟨hook, place, same⟩ | ⟨place, same⟩ |
    ⟨inLua, yielded⟩ | ⟨timers, same⟩
  · exact advance_scheduled scheduled current advanced
  · subst next
    exact scheduled.local_move current (by rw [place]; rfl) ⟨rfl, rfl⟩ rfl lockMatch
  · subst next
    exact scheduled.local_move current (by rw [place]; rfl) ⟨rfl, rfl⟩ rfl lockMatch
  · obtain ⟨stepped, frame⟩ := schedule_eq_some.mp yielded
    obtain ⟨untouched, _⟩ := yieldCo_untouched current stepped
    refine scheduled.paused lockMatch (by rw [frame]) ?_ (fun other waiting => .inl ?_)
    · exact scheduled.broken current (broken_of_inLua inLua)
    · rw [← untouched.inLock]
      exact waiting
  · subst next
    exact ⟨lockMatch, scheduled.unbroken, scheduled.unlocked, scheduled.waits⟩

theorem spawn_scheduled {pc : Pc} (scheduled : Scheduled runner) (outside : pc.locks = 0)
    (yields : pc.unbroken = false) (taken : runner.spawn co pc = some next) : Scheduled next := by
  have lockMatch := spawn_lockMatch scheduled.lockMatch outside taken
  simp only [spawn, Option.map_eq_some_iff] at taken
  obtain ⟨added, born, same⟩ := taken
  obtain ⟨stepped, frame⟩ := schedule_eq_some.mp born
  obtain ⟨untouched, unborn, _, currentCo⟩ := addCo_untouched stepped
  have idle := (scheduled.lockMatch.born co unborn).1
  have places : added.pc = runner.pc := by rw [frame]
  subst next
  refine ⟨lockMatch, fun other unbroken => ?_, fun other free => ?_, fun other waiting => ?_⟩
  · by_cases self : other = co
    · rw [self, goTo_pc_self, yields] at unbroken
      cases unbroken
    · rw [goTo_pc_of_ne added pc self, places] at unbroken
      rw [goTo_system, currentCo]
      exact scheduled.unbroken other unbroken
  · by_cases self : other = co
    · have unbroken := Pc.unbroken_of_unlocked free
      rw [self, goTo_pc_self, yields] at unbroken
      cases unbroken
    · rw [goTo_pc_of_ne added pc self, places] at free
      rw [goTo_system, untouched.mutex]
      exact scheduled.unlocked other free
  · have before : runner.system.inLock other = true := untouched.inLock ▸ waiting
    have waits := scheduled.waits other before
    by_cases self : other = co
    · rw [self, idle] at waits
      cases waits
    · rw [goTo_pc_of_ne added pc self, places]
      exact waits

theorem step_scheduled {label : RunnerLabel} (scheduled : Scheduled runner)
    (taken : step config runner label = some next) : Scheduled next := by
  have lockMatch := step_lockMatch scheduled.lockMatch taken
  rcases step_cases taken with ⟨co, pc, newborn, spawned⟩ | ⟨co, resumed⟩ | ⟨co, woken⟩ |
    ⟨co, current, stepped⟩
  · exact spawn_scheduled scheduled (by cases newborn <;> rfl) (by cases newborn <;> rfl) spawned
  · obtain ⟨stepped, frame⟩ := schedule_eq_some.mp resumed
    obtain ⟨untouched, none, _⟩ := resumeCo_untouched stepped
    refine scheduled.paused lockMatch (by rw [frame]) (fun other => ?_)
      (fun other waiting => .inl ?_)
    · by_contra unbroken
      have current := scheduled.unbroken other (by simpa using unbroken)
      rw [none] at current
      cases current
    · rw [← untouched.inLock]
      exact waiting
  · obtain ⟨stepped, frame⟩ := schedule_eq_some.mp woken
    obtain ⟨untouched, currentCo⟩ := wake_untouched stepped
    rw [frame] at lockMatch ⊢
    refine ⟨lockMatch, fun other unbroken => ?_, fun other free => ?_, fun other waiting => ?_⟩
    · rw [currentCo]
      exact scheduled.unbroken other unbroken
    · rw [untouched.mutex]
      exact scheduled.unlocked other free
    · rw [untouched.inLock] at waiting
      exact scheduled.waits other waiting
  · exact stepCurrent_scheduled scheduled current stepped

end Runner

end AutoDrop
