import AutoDrop.CoSystemSteps
import AutoDrop.RunnerCore

/-!
How often a coroutine of a runner holds the mutex is told by where it stands. A Lua call
that a hook or a check makes is therefore made under the mutex; the one that a timer
makes is not.
-/

namespace AutoDrop

open LabelledRun CoSystem

def Pc.locks : Pc → Nat
  | .register | .beginUnlock | .call (.first _) => 1
  | .registered | .lua (.first _) | .ret (.first _) => 2
  | .lua _ | .ret _ => 1
  | .begin | .procEvent _ | .call _ | .timer | .timerLua | .done => 0

namespace Runner

structure LockMatch (runner : Runner) : Prop where
  lock : LockInvariant runner.system
  depth : ∀ co, runner.system.depth co = (runner.pc co).locks
  born : ∀ co, runner.system.coState co = none →
    runner.pc co = .done ∧ runner.system.currentCo ≠ some co

variable {config : SmConfig} {runner next : Runner} {co : Nat}

theorem start_lockMatch (started : start config = some runner) : LockMatch runner := by
  simp only [start, Option.map_eq_some_iff] at started
  obtain ⟨state, _, same⟩ := started
  subst runner
  refine ⟨⟨fun _ => rfl, rfl, fun _ waits => by simp [CoSystem.start] at waits⟩, ?_, ?_⟩
  · intro co
    by_cases first : co = 0
    · simp [first, CoSystem.start, Pc.locks]
    · simp [first, CoSystem.start, Pc.locks]
  · intro co unborn
    by_cases first : co = 0
    · simp [first] at unborn
    · simp [first, CoSystem.start]

theorem schedule_eq_some {label : CoLabel Nat} :
    runner.schedule label = some next ↔
      CoSystem.step runner.system label = some next.system ∧
        next = { runner with system := next.system } := by
  simp only [schedule, Option.map_eq_some_iff]
  constructor
  · rintro ⟨system, taken, rfl⟩
    exact ⟨taken, rfl⟩
  · rintro ⟨taken, same⟩
    exact ⟨next.system, taken, same.symm⟩

theorem LockMatch.moved (lockMatch : LockMatch runner) {pc : Pc}
    (current : runner.system.currentCo = some co)
    (lock : LockInvariant next.system) (moves : next.pc = Function.update runner.pc co pc)
    (depth : next.system.depth = Function.update runner.system.depth co pc.locks)
    (currentCo : next.system.currentCo = runner.system.currentCo)
    (coState : ∀ other, next.system.coState other = none → runner.system.coState other = none) :
    LockMatch next := by
  refine ⟨lock, fun other => ?_, fun other unborn => ?_⟩
  · rw [depth, moves]
    by_cases same : other = co
    · simp [same]
    · simpa [Function.update_apply, same] using lockMatch.depth other
  · obtain ⟨away, idle⟩ := lockMatch.born other (coState other unborn)
    have different : other ≠ co := by
      rintro rfl
      exact idle current
    rw [moves, currentCo]
    exact ⟨by simpa [Function.update_apply, different] using away, idle⟩

theorem LockMatch.stays (lockMatch : LockMatch runner) {system : CoSystem Nat}
    {label : CoLabel Nat} (taken : CoSystem.step runner.system label = some system)
    (depth : system.depth = runner.system.depth)
    (coState : ∀ other, system.coState other = none → runner.system.coState other = none)
    (currentCo : ∀ other, system.currentCo = some other →
      runner.system.currentCo = some other ∨ system.coState other ≠ none) :
    LockMatch { runner with system := system } := by
  refine ⟨step_lockInvariant lockMatch.lock taken, fun other => ?_, fun other unborn => ?_⟩
  · rw [depth]
    exact lockMatch.depth other
  · obtain ⟨away, idle⟩ := lockMatch.born other (coState other unborn)
    refine ⟨away, fun running => ?_⟩
    rcases currentCo other running with before | alive
    · exact idle before
    · exact alive unborn

structure MovesTo (before after : Runner) (co : Nat) (pc : Pc) : Prop where
  system : after.system = before.system
  pc : after.pc = Function.update before.pc co pc

theorem LockMatch.local_move (lockMatch : LockMatch runner) {pc : Pc}
    (current : runner.system.currentCo = some co) (moved : MovesTo runner next co pc)
    (same : pc.locks = (runner.pc co).locks) : LockMatch next := by
  have system := moved.system
  apply lockMatch.moved current
  · rw [system]
    exact lockMatch.lock
  · exact moved.pc
  · rw [same, ← lockMatch.depth co, system]
    exact (Function.update_eq_self co runner.system.depth).symm
  · rw [system]
  · rw [system]
    exact fun _ unborn => unborn

theorem acquire_cases {locked : Runner → Runner} (lockMatch : LockMatch runner)
    (current : runner.system.currentCo = some co)
    (taken : runner.acquire co locked = some next) :
    ∃ label system, CoSystem.step runner.system label = some system ∧
      (Waits runner.system system co ∧ next = { runner with system := system } ∨
        Enters runner.system system co ∧ next = locked { runner with system := system }) := by
  simp only [acquire, Option.map_eq_some_iff] at taken
  obtain ⟨tried, scheduled, outcome⟩ := taken
  obtain ⟨stepped, same⟩ := schedule_eq_some.mp scheduled
  refine ⟨_, tried.system, stepped, ?_⟩
  rcases lock_cases lockMatch.lock current stepped with ⟨waits, waiting⟩ | ⟨enters, entered⟩
  · rw [if_pos waiting] at outcome
    exact .inl ⟨waits, by rw [← outcome]; exact same⟩
  · rw [if_neg (by simp [entered])] at outcome
    exact .inr ⟨enters, by rw [← same]; exact outcome.symm⟩

theorem release_cases {unlocked : Runner → Runner} (current : runner.system.currentCo = some co)
    (taken : runner.release unlocked = some next) :
    ∃ system, CoSystem.step runner.system .unlock = some system ∧
      Leaves runner.system system co ∧ next = unlocked { runner with system := system } := by
  simp only [release, Option.map_eq_some_iff] at taken
  obtain ⟨left, scheduled, outcome⟩ := taken
  obtain ⟨stepped, same⟩ := schedule_eq_some.mp scheduled
  exact ⟨left.system, stepped, unlock_leaves current stepped, by rw [← same]; exact outcome.symm⟩

theorem acquire_lockMatch {locked : Runner → Runner} (lockMatch : LockMatch runner)
    (current : runner.system.currentCo = some co)
    (moves : ∀ tried, ∃ pc, MovesTo tried (locked tried) co pc ∧
      pc.locks = (runner.pc co).locks + 1)
    (taken : runner.acquire co locked = some next) : LockMatch next := by
  obtain ⟨label, system, stepped, outcome⟩ := acquire_cases lockMatch current taken
  rcases outcome with ⟨waits, same⟩ | ⟨enters, same⟩
  · subst next
    apply lockMatch.stays stepped waits.depth
    · intro other unborn
      rw [waits.coState] at unborn
      exact update_some_ne_none unborn
    · intro other running
      rw [waits.currentCo] at running
      cases running
  · obtain ⟨pc, moved, more⟩ := moves { runner with system := system }
    subst next
    apply lockMatch.moved current
    · rw [moved.system]
      exact step_lockInvariant lockMatch.lock stepped
    · exact moved.pc
    · rw [moved.system, more, ← lockMatch.depth co]
      exact enters.depth
    · rw [moved.system]
      exact enters.currentCo
    · intro other unborn
      rw [moved.system] at unborn
      exact enters.coState ▸ unborn

theorem release_lockMatch {unlocked : Runner → Runner} (lockMatch : LockMatch runner)
    (current : runner.system.currentCo = some co)
    (moves : ∀ left, left.pc = runner.pc → ∃ pc, MovesTo left (unlocked left) co pc ∧
      pc.locks + 1 = (runner.pc co).locks)
    (taken : runner.release unlocked = some next) : LockMatch next := by
  obtain ⟨system, stepped, leaves, same⟩ := release_cases current taken
  obtain ⟨pc, moved, fewer⟩ := moves { runner with system := system } rfl
  subst next
  apply lockMatch.moved current
  · rw [moved.system]
    exact step_lockInvariant lockMatch.lock stepped
  · exact moved.pc
  · have less : pc.locks = runner.system.depth co - 1 := by
      rw [lockMatch.depth co]
      omega
    rw [moved.system, less]
    exact leaves.depth
  · rw [moved.system]
    exact leaves.currentCo
  · intro other unborn
    rw [moved.system] at unborn
    exact leaves.coState other unborn

theorem spawn_lockMatch {pc : Pc} (lockMatch : LockMatch runner) (outside : pc.locks = 0)
    (taken : runner.spawn co pc = some next) : LockMatch next := by
  simp only [spawn, Option.map_eq_some_iff] at taken
  obtain ⟨added, scheduled, same⟩ := taken
  obtain ⟨stepped, frame⟩ := schedule_eq_some.mp scheduled
  obtain ⟨untouched, unborn, alive, currentCo⟩ := addCo_untouched stepped
  have idle := (lockMatch.born co unborn).1
  have stays : LockMatch added := by
    rw [frame]
    exact lockMatch.stays stepped untouched.depth untouched.coState
      (fun other running => .inl (currentCo ▸ running))
  subst next
  refine ⟨stays.lock, fun other => ?_, fun other dead => ?_⟩
  · by_cases new : other = co
    · have places : added.pc = runner.pc := by rw [frame]
      have before : added.system.depth co = 0 := by
        rw [stays.depth co, places, idle]
        rfl
      simp only [goTo, new, Function.update_self, outside]
      exact before
    · simpa [goTo, Function.update_apply, new] using stays.depth other
  · have different : other ≠ co := by
      rintro rfl
      exact alive dead
    simpa [goTo, Function.update_apply, different] using stays.born other dead

theorem schedule_lockMatch {label : CoLabel Nat} (lockMatch : LockMatch runner)
    (taken : runner.schedule label = some next)
    (untouched : Untouched runner.system next.system)
    (currentCo : ∀ other, next.system.currentCo = some other →
      runner.system.currentCo = some other ∨ next.system.coState other ≠ none) :
    LockMatch next := by
  obtain ⟨stepped, frame⟩ := schedule_eq_some.mp taken
  rw [frame]
  exact lockMatch.stays stepped untouched.depth untouched.coState currentCo

theorem changeState_movesTo (runner : Runner) (co : Nat) (next : Option SmState) :
    ∃ pc, MovesTo runner (runner.changeState co next) co pc ∧ pc.inLua = false ∧
      pc.locks = 0 := by
  cases next with
  | none => exact ⟨_, ⟨rfl, rfl⟩, rfl, rfl⟩
  | some state => exact ⟨_, ⟨rfl, rfl⟩, rfl, rfl⟩

theorem callLuaFunc_movesTo (runner : Runner) (co : Nat) (hook : Hook) :
    ∃ pc, MovesTo runner (callLuaFunc hook co runner) co pc ∧
      pc.locks = (Pc.call hook).locks + 1 := by
  refine ⟨calling hook, ⟨rfl, rfl⟩, ?_⟩
  unfold calling
  split
  · cases hook <;> rfl
  · cases hook <;> rfl

theorem afterHook_movesTo (config : SmConfig) (runner : Runner) (co : Nat) (hook : Hook) :
    ∃ pc, MovesTo runner (afterHook config hook co runner) co pc ∧ pc.inLua = false ∧
      pc.locks + 1 = (Pc.ret hook).locks := by
  cases hook with
  | first | enter | exit | check => exact ⟨_, ⟨rfl, rfl⟩, rfl, rfl⟩
  | act state =>
      obtain ⟨pc, moved, leaves, outside⟩ := changeState_movesTo runner co
        (config.nextState runner.nextId state)
      exact ⟨pc, moved, leaves, by rw [outside]; rfl⟩

theorem advance_lockMatch (lockMatch : LockMatch runner)
    (current : runner.system.currentCo = some co)
    (taken : runner.advance config co = some next) : LockMatch next := by
  cases place : runner.pc co with
  | begin | register =>
      simp only [advance, place] at taken
      refine acquire_lockMatch lockMatch current (fun tried => ?_) taken
      exact ⟨_, ⟨rfl, rfl⟩, by rw [place]; rfl⟩
  | registered | beginUnlock =>
      simp only [advance, place] at taken
      refine release_lockMatch lockMatch current (fun left _ => ?_) taken
      exact ⟨_, ⟨rfl, rfl⟩, by rw [place]; rfl⟩
  | procEvent event =>
      simp only [advance, place, Option.some.injEq] at taken
      obtain ⟨pc, moved, _, outside⟩ := changeState_movesTo runner co
        (config.getEventState runner.nextId runner.currentState event)
      subst next
      exact lockMatch.local_move current moved (by rw [outside, place]; rfl)
  | call hook =>
      simp only [advance, place] at taken
      refine acquire_lockMatch lockMatch current (fun tried => ?_) taken
      rw [place]
      exact callLuaFunc_movesTo tried co hook
  | ret hook =>
      simp only [advance, place] at taken
      refine release_lockMatch lockMatch current (fun left _ => ?_) taken
      obtain ⟨pc, moved, _, fewer⟩ := afterHook_movesTo config left co hook
      exact ⟨pc, moved, by rw [place]; exact fewer⟩
  | timer =>
      simp only [advance, place, Option.some.injEq] at taken
      subst next
      exact lockMatch.local_move current ⟨rfl, rfl⟩ (by rw [place]; rfl)
  | done =>
      simp only [advance, place] at taken
      obtain ⟨untouched, idle⟩ := finish_untouched current (schedule_eq_some.mp taken).1
      refine schedule_lockMatch lockMatch taken untouched (fun other running => ?_)
      rw [idle] at running
      cases running
  | lua | timerLua =>
      simp only [advance, place] at taken
      cases taken

/-- Where an added coroutine starts. -/
inductive Newborn : Pc → Prop
  | procEvent (event : String) : Newborn (.procEvent event)
  | check (code : String) (realRun : Bool) : Newborn (.call (.check code realRun))
  | timer : Newborn .timer

theorem running_cases {label : RunnerLabel} (taken : (match runner.system.currentCo with
      | none => none
      | some co => runner.stepCurrent config co label) = some next) :
    ∃ co, runner.system.currentCo = some co ∧
      runner.stepCurrent config co label = some next := by
  split at taken
  · cases taken
  · rename_i co current
    exact ⟨co, current, taken⟩

theorem step_cases {label : RunnerLabel} (taken : step config runner label = some next) :
    (∃ co pc, Newborn pc ∧ runner.spawn co pc = some next) ∨
      (∃ co, runner.schedule (.resumeCo co) = some next) ∨
      (∃ co, runner.schedule (.wake co) = some next) ∨
      ∃ co, runner.system.currentCo = some co ∧
        runner.stepCurrent config co label = some next := by
  cases label with
  | pushSmEvent co event => exact .inl ⟨co, _, .procEvent event, taken⟩
  | checkLuaCode co code realRun => exact .inl ⟨co, _, .check code realRun, taken⟩
  | timerExpire timer co =>
      simp only [step] at taken
      split at taken
      · exact .inl ⟨co, _, .timer, taken⟩
      · cases taken
  | resumeCo co => exact .inr (.inl ⟨co, taken⟩)
  | wake co => exact .inr (.inr (.inl ⟨co, taken⟩))
  | advance | luaYield | luaStartTimer | luaStopTimer | luaReturn =>
      exact .inr (.inr (.inr (running_cases taken)))

theorem stepCurrent_cases {label : RunnerLabel}
    (taken : runner.stepCurrent config co label = some next) :
    label = .advance ∧ runner.advance config co = some next ∨
      (∃ hook, runner.pc co = .lua hook ∧ next = runner.goTo co (.ret hook)) ∨
      runner.pc co = .timerLua ∧ next = runner.goTo co .done ∨
      (runner.pc co).inLua = true ∧ runner.schedule .yieldCo = some next ∨
      ∃ timers, next = { runner with timers := timers } := by
  cases label with
  | advance => exact .inl ⟨rfl, taken⟩
  | luaReturn =>
      simp only [stepCurrent, luaReturn] at taken
      split at taken
      · rename_i hook place
        simp only [Option.some.injEq] at taken
        exact .inr (.inl ⟨hook, place, taken.symm⟩)
      · rename_i place
        simp only [Option.some.injEq] at taken
        exact .inr (.inr (.inl ⟨place, taken.symm⟩))
      · cases taken
  | luaYield =>
      simp only [stepCurrent] at taken
      split at taken
      · rename_i inLua
        exact .inr (.inr (.inr (.inl ⟨inLua, taken⟩)))
      · cases taken
  | luaStartTimer timer | luaStopTimer timer =>
      simp only [stepCurrent] at taken
      split at taken
      · simp only [Option.some.injEq] at taken
        exact .inr (.inr (.inr (.inr ⟨_, taken.symm⟩)))
      · cases taken
  | pushSmEvent | checkLuaCode | timerExpire | resumeCo | wake => cases taken

theorem stepCurrent_lockMatch {label : RunnerLabel} (lockMatch : LockMatch runner)
    (current : runner.system.currentCo = some co)
    (taken : runner.stepCurrent config co label = some next) : LockMatch next := by
  rcases stepCurrent_cases taken with ⟨_, advanced⟩ | ⟨hook, place, same⟩ | ⟨place, same⟩ |
    ⟨_, yielded⟩ | ⟨timers, same⟩
  · exact advance_lockMatch lockMatch current advanced
  · subst next
    refine lockMatch.local_move current ⟨rfl, rfl⟩ ?_
    rw [place]
    cases hook <;> rfl
  · subst next
    exact lockMatch.local_move current ⟨rfl, rfl⟩ (by rw [place]; rfl)
  · obtain ⟨untouched, idle⟩ := yieldCo_untouched current (schedule_eq_some.mp yielded).1
    refine schedule_lockMatch lockMatch yielded untouched (fun other running => ?_)
    rw [idle] at running
    cases running
  · subst next
    exact ⟨lockMatch.lock, lockMatch.depth, lockMatch.born⟩

theorem step_lockMatch {label : RunnerLabel} (lockMatch : LockMatch runner)
    (taken : step config runner label = some next) : LockMatch next := by
  rcases step_cases taken with ⟨co, pc, newborn, spawned⟩ | ⟨co, resumed⟩ | ⟨co, woken⟩ |
    ⟨co, current, stepped⟩
  · exact spawn_lockMatch lockMatch (by cases newborn <;> rfl) spawned
  · obtain ⟨untouched, _, current, alive⟩ := resumeCo_untouched (schedule_eq_some.mp resumed).1
    refine schedule_lockMatch lockMatch resumed untouched (fun other same => .inr ?_)
    obtain rfl : co = other := Option.some.inj (current.symm.trans same)
    exact alive
  · obtain ⟨untouched, currentCo⟩ := wake_untouched (schedule_eq_some.mp woken).1
    exact schedule_lockMatch lockMatch woken untouched (fun other same => .inl (currentCo ▸ same))
  · exact stepCurrent_lockMatch lockMatch current stepped

theorem holder_of_inLua (lockMatch : LockMatch runner) (inLua : (runner.pc co).inLua = true)
    (hook : runner.pc co ≠ .timerLua) : runner.system.mutex.holder = some co := by
  apply holder_of_depth lockMatch.lock
  rw [lockMatch.depth co]
  cases place : runner.pc co with
  | lua called => cases called <;> simp [Pc.locks]
  | timerLua => exact absurd place hook
  | _ => simp [place, Pc.inLua] at inLua

end Runner

end AutoDrop
