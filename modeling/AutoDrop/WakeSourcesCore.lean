import AutoDrop.EventLoopCore

/-!
What wakes a coroutine that suspends through `yield_by_fd`, `yield_by_timer` or
`AD_CO_MUTEX::lock`: the node of the descriptor, its timeout, the timer, or the entry of
`m_wait_co`. Every call of `yield_co` gets a number, and a source remembers the number of
the call it was made for; `wakes` and `resumes` log the calls of `set_co_state(READY)` by
these sources and the calls of `resume_co` with what they found. Registrations and kernel
calls succeed, so two calls do not wait for one descriptor at the same time.
-/

namespace AutoDrop

/-- The nodes of `m_fdToNode`. `coTimeout` is the `m_timer` of the `AD_CO_EVENT_NODE` of
`fd`; `other` stands for every node whose handler is a program of its own. -/
inductive ScNode (Co : Type*)
  | coEvent (fd : Nat) (co : Co) (yieldNo : Nat) (timer : Option Nat)
  | coTimeout (timerFd fd : Nat) (co : Co) (yieldNo : Nat)
  | coTimer (timerFd : Nat) (co : Co) (yieldNo : Nat)
  | other

structure QueuedMutex (Co : Type*) where
  holder : Option Co
  waitCo : List (Co × Nat)
  selfCount : Nat

inductive YieldCall (Mutex : Type*)
  | byFd (fd : Nat) (timer : Option Nat)
  | byTimer (timerFd : Nat)
  | inLock (mutex : Mutex)

structure Wake (Co : Type*) where
  co : Co
  yieldNo : Nat
  stateThen : Option AcrState
  yieldThen : Option Nat

structure Resume (Co : Type*) where
  co : Co
  stateThen : Option AcrState
  yieldThen : Option Nat

structure CoWorld (Co Mutex : Type*) where
  loop : EventLoop Co (ScNode Co)
  mutexes : Mutex → QueuedMutex Co
  yielding : Co → Option (Nat × YieldCall Mutex)
  retrying : Co → Option Mutex
  yieldResult : Co → Bool
  yieldCount : Nat
  wakes : List (Wake Co)
  resumes : List (Resume Co)

inductive WorldLabel (Co Mutex : Type*)
  | turn (label : LoopLabel Co (ScNode Co))
  | resumeNext
  | handleEvent
  | addCo (co : Co)
  | registerOther (fd : Nat)
  | unregisterOther (fd : Nat)
  | yieldByFd (fd : Nat) (timer : Option Nat)
  | yieldByTimer (timerFd : Nat)
  | lock (mutex : Mutex)
  | retry
  | unlock (mutex : Mutex)
  | finish

namespace QueuedMutex

variable {Co : Type*}

def coMutex (mutex : QueuedMutex Co) : CoMutex Co :=
  ⟨mutex.holder, mutex.waitCo.map Prod.fst, mutex.selfCount⟩

def enter (mutex : QueuedMutex Co) (co : Co) : QueuedMutex Co :=
  if mutex.holder.isSome then { mutex with selfCount := mutex.selfCount + 1 }
  else { mutex with holder := some co }

def leave (mutex : QueuedMutex Co) : QueuedMutex Co :=
  if mutex.selfCount = 0 then { mutex with holder := none }
  else { mutex with selfCount := mutex.selfCount - 1 }

theorem coMutex_leave (mutex : QueuedMutex Co) :
    mutex.leave.coMutex = CoSystem.leave mutex.coMutex := by
  by_cases single : mutex.selfCount = 0 <;> simp [leave, CoSystem.leave, coMutex, single]

@[simp] theorem waitCo_enter (mutex : QueuedMutex Co) (co : Co) :
    (mutex.enter co).waitCo = mutex.waitCo := by
  unfold enter
  split <;> rfl

@[simp] theorem waitCo_leave (mutex : QueuedMutex Co) : mutex.leave.waitCo = mutex.waitCo := by
  unfold leave
  split <;> rfl

end QueuedMutex

namespace ScNode

variable {Co Mutex : Type*}

def At (fd : Nat) : ScNode Co → Prop
  | coEvent own _ _ _ => own = fd
  | coTimeout own _ _ _ => own = fd
  | coTimer own _ _ => own = fd
  | other => True

def internal : ScNode Co → Bool
  | other => false
  | _ => true

def source : ScNode Co → Option (Co × Nat × YieldCall Mutex)
  | coEvent fd co yieldNo timer => some (co, yieldNo, .byFd fd timer)
  | coTimeout timerFd fd co yieldNo => some (co, yieldNo, .byFd fd (some timerFd))
  | coTimer timerFd co yieldNo => some (co, yieldNo, .byTimer timerFd)
  | other => none

end ScNode

namespace CoWorld

variable {Co Mutex : Type*} [DecidableEq Co] [DecidableEq Mutex]

def start : CoWorld Co Mutex where
  loop := EventLoop.start
  mutexes := fun _ => ⟨none, [], 0⟩
  yielding := fun _ => none
  retrying := fun _ => none
  yieldResult := fun _ => true
  yieldCount := 0
  wakes := []
  resumes := []

/-- `set_co_state(ACR_STATE_READY)` by a source made for the yield `yieldNo`. -/
def setReady (world : CoWorld Co Mutex) (co : Co) (yieldNo : Nat) : CoWorld Co Mutex :=
  { world with
    loop := world.loop.setCoState co .ready
    wakes := ⟨co, yieldNo, world.loop.coState co, (world.yielding co).map Prod.fst⟩ ::
      world.wakes }

def setYieldResult (world : CoWorld Co Mutex) (co : Co) (result : Bool) : CoWorld Co Mutex :=
  { world with yieldResult := Function.update world.yieldResult co result }

def unregisterNode (world : CoWorld Co Mutex) (fd : Nat) : CoWorld Co Mutex :=
  { world with loop := world.loop.unregisterNode fd }

def registerNode (world : CoWorld Co Mutex) (fd : Nat) (node : ScNode Co) : CoWorld Co Mutex :=
  { world with loop := world.loop.registerNode fd node }

def suspend (world : CoWorld Co Mutex) (co : Co) (call : YieldCall Mutex) : CoWorld Co Mutex :=
  { world with
    loop := world.loop.leaveTurn co .suspend
    yielding := Function.update world.yielding co (some (world.yieldCount, call))
    yieldCount := world.yieldCount + 1 }

def stopTimer (world : CoWorld Co Mutex) : Option Nat → CoWorld Co Mutex
  | some timerFd => world.unregisterNode timerFd
  | none => world

/-- `AD_CO_EVENT_NODE::handleEvent`. -/
def coEventHandle (world : CoWorld Co Mutex) (fd : Nat) (co : Co) (yieldNo : Nat)
    (timer : Option Nat) : CoWorld Co Mutex :=
  (((world.stopTimer timer).setReady co yieldNo).setYieldResult co true).unregisterNode fd

def handleNode (world : CoWorld Co Mutex) : ScNode Co → CoWorld Co Mutex
  | .coEvent fd co yieldNo timer => world.coEventHandle fd co yieldNo timer
  | .coTimeout timerFd fd co yieldNo =>
      (world.coEventHandle fd co yieldNo (some timerFd)).setYieldResult co false
  | .coTimer timerFd co yieldNo => (world.stopTimer (some timerFd)).setReady co yieldNo
  | .other => world

def yieldByFd (world : CoWorld Co Mutex) (co : Co) (fd : Nat) (timer : Option Nat) :
    CoWorld Co Mutex :=
  let timed := match timer with
    | some timerFd => world.registerNode timerFd (.coTimeout timerFd fd co world.yieldCount)
    | none => world
  (timed.registerNode fd (.coEvent fd co world.yieldCount timer)).suspend co (.byFd fd timer)

def yieldByTimer (world : CoWorld Co Mutex) (co : Co) (timerFd : Nat) : CoWorld Co Mutex :=
  (world.registerNode timerFd (.coTimer timerFd co world.yieldCount)).suspend co (.byTimer timerFd)

def setMutex (world : CoWorld Co Mutex) (mutex : Mutex) (value : QueuedMutex Co) :
    CoWorld Co Mutex :=
  { world with mutexes := Function.update world.mutexes mutex value }

/-- `m_wait_co.push_back` and `yield_co`. -/
def waitInLock (world : CoWorld Co Mutex) (co : Co) (mutex : Mutex) : CoWorld Co Mutex :=
  let queued := (world.mutexes mutex).waitCo ++ [(co, world.yieldCount)]
  (world.setMutex mutex { world.mutexes mutex with waitCo := queued }).suspend co (.inLock mutex)

def testHolder (world : CoWorld Co Mutex) (co : Co) (mutex : Mutex) : CoWorld Co Mutex :=
  if (world.mutexes mutex).holder.isSome then world.waitInLock co mutex
  else world.setMutex mutex ((world.mutexes mutex).enter co)

def lock (world : CoWorld Co Mutex) (co : Co) (mutex : Mutex) : CoWorld Co Mutex :=
  if (world.mutexes mutex).holder ≠ some co then world.testHolder co mutex
  else world.setMutex mutex ((world.mutexes mutex).enter co)

def unlock (world : CoWorld Co Mutex) (mutex : Mutex) : CoWorld Co Mutex :=
  let left := (world.mutexes mutex).leave
  match left.holder, left.waitCo with
  | none, (co, yieldNo) :: others =>
      (world.setMutex mutex { left with waitCo := others }).setReady co yieldNo
  | _, _ => world.setMutex mutex left

/-- `resume_co`: a call of `yield_by_fd` or `yield_by_timer` returns, one of `lock` goes on. -/
def resume (world : CoWorld Co Mutex) (loop : EventLoop Co (ScNode Co)) (co : Co) :
    CoWorld Co Mutex :=
  { world with
    loop
    yielding := Function.update world.yielding co none
    retrying := Function.update world.retrying co
      (match world.yielding co with
        | some (_, .inLock mutex) => some mutex
        | _ => none)
    resumes := ⟨co, world.loop.coState co, (world.yielding co).map Prod.fst⟩ :: world.resumes }

/-- The coroutine executes a program; the one of a waking node executes `handleNode` only. -/
def executesProgram (world : CoWorld Co Mutex) (co : Co) : Bool :=
  !((world.loop.task co).any ScNode.internal)

def program (world : CoWorld Co Mutex) : Option Co :=
  world.loop.currentCo.filter fun co => world.executesProgram co && (world.retrying co).isNone

def stepProgram (world : CoWorld Co Mutex) (co : Co) :
    WorldLabel Co Mutex → Option (CoWorld Co Mutex)
  | .yieldByFd fd timer =>
      if world.loop.lookupNode fd = none ∧
          ∀ timerFd ∈ timer, timerFd ≠ fd ∧ world.loop.lookupNode timerFd = none then
        some (world.yieldByFd co fd timer)
      else none
  | .yieldByTimer timerFd =>
      if world.loop.lookupNode timerFd = none then some (world.yieldByTimer co timerFd) else none
  | .lock mutex => some (world.lock co mutex)
  | .unlock mutex => some (world.unlock mutex)
  | .finish => some { world with loop := world.loop.leaveTurn co .dead }
  | _ => none

def step (world : CoWorld Co Mutex) : WorldLabel Co Mutex → Option (CoWorld Co Mutex)
  | .turn .resumeNext => none
  | .turn label => (world.loop.stepLoop label).map fun loop => { world with loop }
  | .resumeNext =>
      (world.loop.stepLoop .resumeNext).bind fun loop =>
        loop.currentCo.map fun co => world.resume loop co
  | .handleEvent =>
      world.loop.currentCo.bind fun co =>
        (world.loop.task co).bind fun node =>
          if node.internal then
            let handled := world.handleNode node
            some { handled with loop := handled.loop.leaveTurn co .dead }
          else none
  | .addCo co =>
      if (world.loop.phase = .outside ∨ world.program.isSome) ∧ world.loop.coState co = none then
        some { world with loop := world.loop.addCo co none }
      else none
  | .registerOther fd =>
      if world.loop.phase = .outside ∨ world.program.isSome then
        some (world.registerNode fd .other)
      else none
  | .unregisterOther fd =>
      if (world.loop.phase = .outside ∨ world.program.isSome) ∧
          (world.loop.lookupNode fd).all fun node => !node.internal then
        some (world.unregisterNode fd)
      else none
  | .retry =>
      world.loop.currentCo.bind fun co =>
        (world.retrying co).bind fun mutex =>
          if world.executesProgram co then some <|
            { world with
              retrying := Function.update world.retrying co none }.testHolder co mutex
          else none
  | label => world.program.bind fun co => world.stepProgram co label

end CoWorld

end AutoDrop
