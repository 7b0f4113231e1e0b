import AutoDrop.RunnerLocks

/-! The Lua interpreter of a runner is used by one coroutine at a time, timers apart. -/

namespace AutoDrop.Runner

open LabelledRun CoSystem

variable {config : SmConfig} {runner next : Runner} {co : Nat}

structure LuaExclusive (runner : Runner) : Prop where
  underLock : ∀ co, (runner.pc co).inLua = true → runner.system.mutex.holder = some co
  single : ∀ first second, (runner.pc first).inLua = true → (runner.pc second).inLua = true →
    first = second

def NoTimerCall (runner : Runner) (label : RunnerLabel) : Prop :=
  label = .advance → ∀ co ∈ runner.system.currentCo, runner.pc co ≠ .timer

instance (runner : Runner) (label : RunnerLabel) : Decidable (NoTimerCall runner label) :=
  inferInstanceAs (Decidable (_ → _))

structure HooksOnly (runner : Runner) : Prop where
  lockMatch : LockMatch runner
  noTimer : ∀ co, runner.pc co ≠ .timerLua

theorem luaExclusive_of_hooksOnly (hooksOnly : HooksOnly runner) : LuaExclusive runner := by
  have underLock : ∀ co, (runner.pc co).inLua = true →
      runner.system.mutex.holder = some co :=
    fun co inLua => holder_of_inLua hooksOnly.lockMatch inLua (hooksOnly.noTimer co)
  refine ⟨underLock, fun first second left right => ?_⟩
  exact Option.some.inj ((underLock first left).symm.trans (underLock second right))

theorem update_ne_timerLua {pcs : Nat → Pc} {pc : Pc} (noTimer : ∀ co, pcs co ≠ .timerLua)
    (other : pc ≠ .timerLua) (place : Nat) : Function.update pcs co pc place ≠ .timerLua := by
  by_cases same : place = co
  · simpa [same] using other
  · simpa [Function.update_apply, same] using noTimer place

theorem MovesTo.noTimer {before after : Runner} {pc : Pc} (moved : MovesTo before after co pc)
    (noTimer : ∀ co, before.pc co ≠ .timerLua) (other : pc ≠ .timerLua) (place : Nat) :
    after.pc place ≠ .timerLua := by
  rw [moved.pc]
  exact update_ne_timerLua noTimer other place

theorem acquire_noTimer {locked : Runner → Runner} (lockMatch : LockMatch runner)
    (noTimer : ∀ co, runner.pc co ≠ .timerLua)
    (current : runner.system.currentCo = some co)
    (moves : ∀ tried, ∃ pc, MovesTo tried (locked tried) co pc ∧ pc ≠ .timerLua)
    (taken : runner.acquire co locked = some next) (place : Nat) :
    next.pc place ≠ .timerLua := by
  obtain ⟨label, system, _, outcome⟩ := acquire_cases lockMatch current taken
  rcases outcome with ⟨_, same⟩ | ⟨_, same⟩
  · subst next
    exact noTimer place
  · subst next
    obtain ⟨pc, moved, other⟩ := moves { runner with system := system }
    exact moved.noTimer noTimer other place

theorem release_noTimer {unlocked : Runner → Runner} (noTimer : ∀ co, runner.pc co ≠ .timerLua)
    (current : runner.system.currentCo = some co)
    (moves : ∀ left, ∃ pc, MovesTo left (unlocked left) co pc ∧ pc ≠ .timerLua)
    (taken : runner.release unlocked = some next) (place : Nat) : next.pc place ≠ .timerLua := by
  obtain ⟨system, _, _, same⟩ := release_cases current taken
  subst next
  obtain ⟨pc, moved, other⟩ := moves { runner with system := system }
  exact moved.noTimer noTimer other place

theorem schedule_noTimer {label : CoLabel Nat} (noTimer : ∀ co, runner.pc co ≠ .timerLua)
    (taken : runner.schedule label = some next) (place : Nat) : next.pc place ≠ .timerLua := by
  rw [(schedule_eq_some.mp taken).2]
  exact noTimer place

theorem spawn_noTimer {pc : Pc} (noTimer : ∀ co, runner.pc co ≠ .timerLua)
    (other : pc ≠ .timerLua) (taken : runner.spawn co pc = some next) (place : Nat) :
    next.pc place ≠ .timerLua := by
  simp only [spawn, Option.map_eq_some_iff] at taken
  obtain ⟨added, scheduled, same⟩ := taken
  subst next
  exact update_ne_timerLua (schedule_noTimer noTimer scheduled) other place

theorem ne_timerLua_of_inLua {pc : Pc} (outside : pc.inLua = false) : pc ≠ .timerLua := by
  rintro rfl
  cases outside

theorem advance_noTimer (lockMatch : LockMatch runner) (noTimer : ∀ co, runner.pc co ≠ .timerLua)
    (current : runner.system.currentCo = some co) (notTimer : runner.pc co ≠ .timer)
    (taken : runner.advance config co = some next) (place : Nat) :
    next.pc place ≠ .timerLua := by
  cases here : runner.pc co with
  | begin | register =>
      simp only [advance, here] at taken
      refine acquire_noTimer lockMatch noTimer current (fun tried => ?_) taken place
      exact ⟨_, ⟨rfl, rfl⟩, by simp⟩
  | registered | beginUnlock =>
      simp only [advance, here] at taken
      refine release_noTimer noTimer current (fun left => ?_) taken place
      exact ⟨_, ⟨rfl, rfl⟩, by simp⟩
  | procEvent event =>
      simp only [advance, here, Option.some.injEq] at taken
      subst next
      obtain ⟨pc, moved, outside, _⟩ := changeState_movesTo runner co
        (config.getEventState runner.nextId runner.currentState event)
      exact moved.noTimer noTimer (ne_timerLua_of_inLua outside) place
  | call hook =>
      simp only [advance, here] at taken
      refine acquire_noTimer lockMatch noTimer current (fun tried => ?_) taken place
      refine ⟨calling hook, ⟨rfl, rfl⟩, ?_⟩
      unfold calling
      split <;> simp
  | ret hook =>
      simp only [advance, here] at taken
      refine release_noTimer noTimer current (fun left => ?_) taken place
      obtain ⟨pc, moved, outside, _⟩ := afterHook_movesTo config left co hook
      exact ⟨pc, moved, ne_timerLua_of_inLua outside⟩
  | timer => exact absurd here notTimer
  | done =>
      simp only [advance, here] at taken
      exact schedule_noTimer noTimer taken place
  | lua | timerLua =>
      simp only [advance, here] at taken
      cases taken

theorem stepCurrent_noTimer {label : RunnerLabel} (lockMatch : LockMatch runner)
    (noTimer : ∀ co, runner.pc co ≠ .timerLua)
    (current : runner.system.currentCo = some co) (noCall : NoTimerCall runner label)
    (taken : runner.stepCurrent config co label = some next) (place : Nat) :
    next.pc place ≠ .timerLua := by
  rcases stepCurrent_cases taken with ⟨advances, advanced⟩ | ⟨hook, _, same⟩ | ⟨_, same⟩ |
    ⟨_, yielded⟩ | ⟨timers, same⟩
  · exact advance_noTimer lockMatch noTimer current (noCall advances co current) advanced place
  · subst next
    exact update_ne_timerLua noTimer (by simp) place
  · subst next
    exact update_ne_timerLua noTimer (by simp) place
  · exact schedule_noTimer noTimer yielded place
  · subst next
    exact noTimer place

theorem step_hooksOnly {label : RunnerLabel} (hooksOnly : HooksOnly runner)
    (noCall : NoTimerCall runner label) (taken : step config runner label = some next) :
    HooksOnly next := by
  have noTimer := hooksOnly.noTimer
  refine ⟨step_lockMatch hooksOnly.lockMatch taken, fun place => ?_⟩
  rcases step_cases taken with ⟨co, pc, newborn, spawned⟩ | ⟨co, resumed⟩ | ⟨co, woken⟩ |
    ⟨co, current, stepped⟩
  · exact spawn_noTimer noTimer (by cases newborn <;> simp) spawned place
  · exact schedule_noTimer noTimer resumed place
  · exact schedule_noTimer noTimer woken place
  · exact stepCurrent_noTimer hooksOnly.lockMatch noTimer current noCall stepped place

theorem noTimerCall_of_step {label : RunnerLabel} (hooksOnly : HooksOnly runner)
    (taken : step config runner label = some next) (exclusive : LuaExclusive next) :
    NoTimerCall runner label := by
  rintro rfl co running timer
  have current : runner.system.currentCo = some co := running
  simp only [step, current, stepCurrent, advance, timer, Option.some.injEq] at taken
  subst next
  have held := exclusive.underLock co (by simp [goTo, Pc.inLua])
  have inside := depth_holder hooksOnly.lockMatch.lock held
  rw [hooksOnly.lockMatch.depth co, timer] at inside
  simp [Pc.locks] at inside

theorem start_hooksOnly (started : start config = some runner) : HooksOnly runner := by
  refine ⟨start_lockMatch started, fun place => ?_⟩
  simp only [start, Option.map_eq_some_iff] at started
  obtain ⟨state, _, same⟩ := started
  subst runner
  by_cases first : place = 0
  · simp [first]
  · simp [first]

/-- Every Lua call of a run is made under the mutex, and no two overlap, exactly when no
step of the run is the callback of a timer that Lua started. -/
theorem always_luaExclusive_iff (config : SmConfig) (runner final : Runner)
    (labels : List RunnerLabel) (started : start config = some runner)
    (run : exec (step config) runner labels = some final) :
    Always (step config) LuaExclusive runner labels ↔
      Meets (step config) NoTimerCall runner labels :=
  always_iff_meets (fun _ hooksOnly => luaExclusive_of_hooksOnly hooksOnly)
    (fun _ _ _ hooksOnly noCall taken => step_hooksOnly hooksOnly noCall taken)
    (fun _ _ _ hooksOnly taken exclusive => noTimerCall_of_step hooksOnly taken exclusive)
    (start_hooksOnly started) run

def hookSleeps : List RunnerLabel :=
  [.resumeCo 0, .advance, .advance, .advance, .advance, .luaYield, .pushSmEvent 1 "y_pushed",
    .resumeCo 1, .advance, .advance, .wake 0, .resumeCo 0, .luaReturn]

theorem always_luaExclusive_hookSleeps :
    ∃ runner final, start .buttons = some runner ∧
      exec (step .buttons) runner hookSleeps = some final ∧
      Always (step .buttons) LuaExclusive runner hookSleeps :=
  ⟨_, _, rfl, rfl, (always_luaExclusive_iff .buttons _ _ hookSleeps rfl rfl).mpr (by decide)⟩

/-- The callback of a timer runs while the hook that started the timer sleeps in Lua. -/
theorem timer_enters_lua :
    ∃ runner final, start .buttons = some runner ∧
      exec (step .buttons) runner
        [.resumeCo 0, .advance, .advance, .advance, .advance, .luaStartTimer 0, .luaYield,
          .timerExpire 0 1, .resumeCo 1, .advance] = some final ∧
      (final.pc 0).inLua = true ∧ (final.pc 1).inLua = true ∧
      final.system.mutex.holder ≠ some 1 :=
  ⟨_, _, rfl, rfl, by decide, by decide, by decide⟩

end AutoDrop.Runner
