import AutoDrop.CoMutexCore
import AutoDrop.DynamicSmCore

/-!
The coroutines of a `RUNNER`: coroutine 0 runs `begin`, the others run `proc_event`, a
callback that Lua gave to `start_timer_ms`, or `check_lua_code`. They yield where `lock_sm`
has to wait and inside a Lua function, which may call a device, sleep, start and stop timers
and trigger events. A hook whose text is empty does not enter Lua.
-/

namespace AutoDrop

inductive Hook
  | first (state : SmState)
  | enter (state : SmState)
  | act (state : SmState)
  | exit (state next : SmState)
  | check (code : String) (realRun : Bool)
deriving DecidableEq, Repr

/-- Where a coroutine stands: `call` before the `lock_sm` of a hook, `lua` in its Lua function,
`ret` before its `unlock_sm`; `begin` to `beginUnlock` are the four steps of `begin` around the
first hook. -/
inductive Pc
  | begin
  | register
  | registered
  | beginUnlock
  | procEvent (event : String)
  | call (hook : Hook)
  | lua (hook : Hook)
  | ret (hook : Hook)
  | timer
  | timerLua
  | done
deriving DecidableEq, Repr

structure Runner where
  system : CoSystem Nat
  pc : Nat → Pc
  currentState : SmState
  nextId : Nat
  timers : List Nat
  trace : List SmEvent

inductive RunnerLabel
  | pushSmEvent (co : Nat) (event : String)
  | checkLuaCode (co : Nat) (code : String) (realRun : Bool)
  | timerExpire (timer co : Nat)
  | resumeCo (co : Nat)
  | wake (co : Nat)
  | advance
  | luaYield
  | luaStartTimer (timer : Nat)
  | luaStopTimer (timer : Nat)
  | luaReturn
deriving DecidableEq, Repr

namespace Hook

def luaFunc : Hook → String
  | first state | enter state => state.config.enter
  | act state => state.config.action
  | exit state _ => state.config.exit
  | check code realRun => if realRun then code else ""

def traced : Hook → List SmEvent
  | first state | enter state => [.enter state]
  | act state => [.act state]
  | exit state _ => [.exit state]
  | check _ _ => []

end Hook

def Pc.inLua : Pc → Bool
  | lua _ | timerLua => true
  | _ => false

namespace Runner

/-- The runner of `runner_init`; there is none where the initial state is not configured. -/
def start (config : SmConfig) : Option Runner :=
  (config.createSmState 0 config.initState).map fun state =>
    { system := { CoSystem.start with
        coState := Function.update (fun _ => none) 0 (some .ready) }
      pc := Function.update (fun _ => .done) 0 .begin
      currentState := state
      nextId := 1
      timers := []
      trace := [] }

def goTo (runner : Runner) (co : Nat) (pc : Pc) : Runner :=
  { runner with pc := Function.update runner.pc co pc }

@[simp] theorem goTo_system (runner : Runner) (co : Nat) (pc : Pc) :
    (runner.goTo co pc).system = runner.system := rfl

@[simp] theorem goTo_pc_self (runner : Runner) (co : Nat) (pc : Pc) :
    (runner.goTo co pc).pc co = pc := by
  simp [goTo]

theorem goTo_pc_of_ne (runner : Runner) {co other : Nat} (pc : Pc) (different : other ≠ co) :
    (runner.goTo co pc).pc other = runner.pc other := by
  simp [goTo, different]

def schedule (runner : Runner) (label : CoLabel Nat) : Option Runner :=
  (CoSystem.step runner.system label).map fun system => { runner with system := system }

def spawn (runner : Runner) (co : Nat) (pc : Pc) : Option Runner :=
  (runner.schedule (.addCo co)).map fun added => added.goTo co pc

/-- `lock_sm`, and what the coroutine does once it has the lock. -/
def acquire (runner : Runner) (co : Nat) (locked : Runner → Runner) : Option Runner :=
  (runner.schedule (if runner.system.inLock co then .retry else .lock)).map fun tried =>
    if tried.system.inLock co then tried else locked tried

/-- `unlock_sm`, and what the coroutine does up to its next `lock_sm`. -/
def release (runner : Runner) (unlocked : Runner → Runner) : Option Runner :=
  (runner.schedule .unlock).map unlocked

/-- Where `call_lua_func` leads; an empty text is not run. -/
def calling (hook : Hook) : Pc :=
  if hook.luaFunc = "" then .ret hook else .lua hook

def callLuaFunc (hook : Hook) (co : Nat) (runner : Runner) : Runner :=
  { runner.goTo co (calling hook) with trace := runner.trace ++ hook.traced }

/-- The head of `change_state`; the exit hook is that of the object that is current here. -/
def changeState (runner : Runner) (co : Nat) : Option SmState → Runner
  | none => runner.goTo co .done
  | some next =>
      { runner.goTo co (.call (.exit runner.currentState next)) with nextId := runner.nextId + 1 }

def afterHook (config : SmConfig) (hook : Hook) (co : Nat) (runner : Runner) : Runner :=
  match hook with
  | .first _ => runner.goTo co .beginUnlock
  | .enter _ => runner.goTo co (.call (.act runner.currentState))
  | .act state => runner.changeState co (config.nextState runner.nextId state)
  | .exit _ next =>
      { runner.goTo co (.call (.enter next)) with
        currentState := next
        trace := runner.trace ++ [.assign next] }
  | .check _ _ => runner.goTo co .done

def advance (config : SmConfig) (runner : Runner) (co : Nat) : Option Runner :=
  match runner.pc co with
  | .begin => runner.acquire co fun locked => locked.goTo co .register
  | .register => runner.acquire co fun locked => locked.goTo co .registered
  | .registered =>
      runner.release fun unlocked => unlocked.goTo co (.call (.first unlocked.currentState))
  | .beginUnlock =>
      runner.release fun unlocked => unlocked.goTo co (.call (.act unlocked.currentState))
  | .procEvent event =>
      some (runner.changeState co
        (config.getEventState runner.nextId runner.currentState event))
  | .call hook => runner.acquire co (callLuaFunc hook co)
  | .ret hook => runner.release (afterHook config hook co)
  | .timer => some (runner.goTo co .timerLua)
  | .done => runner.schedule .finish
  | .lua _ | .timerLua => none

def luaReturn (runner : Runner) (co : Nat) : Option Runner :=
  match runner.pc co with
  | .lua hook => some (runner.goTo co (.ret hook))
  | .timerLua => some (runner.goTo co .done)
  | _ => none

def stepCurrent (config : SmConfig) (runner : Runner) (co : Nat) :
    RunnerLabel → Option Runner
  | .advance => runner.advance config co
  | .luaReturn => runner.luaReturn co
  | .luaYield => if (runner.pc co).inLua then runner.schedule .yieldCo else none
  | .luaStartTimer timer =>
      if (runner.pc co).inLua then some { runner with timers := timer :: runner.timers }
      else none
  | .luaStopTimer timer =>
      if (runner.pc co).inLua then some { runner with timers := runner.timers.erase timer }
      else none
  | _ => none

def step (config : SmConfig) (runner : Runner) : RunnerLabel → Option Runner
  | .pushSmEvent co event => runner.spawn co (.procEvent event)
  | .checkLuaCode co code realRun => runner.spawn co (.call (.check code realRun))
  | .timerExpire timer co => if timer ∈ runner.timers then runner.spawn co .timer else none
  | .resumeCo co => runner.schedule (.resumeCo co)
  | .wake co => runner.schedule (.wake co)
  | label =>
      match runner.system.currentCo with
      | none => none
      | some co => runner.stepCurrent config co label

end Runner

end AutoDrop
