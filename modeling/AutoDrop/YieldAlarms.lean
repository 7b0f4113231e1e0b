import AutoDrop.TimerSpec
import AutoDrop.WakeSourcesHandlers

/-!
`yield_by_fd` and `yield_by_timer` where registrations and timers can be refused.
`registerNode` tells its caller nothing, so the coroutine is suspended all the same. The
labels carry the answers of the kernel.
-/

namespace AutoDrop

open LabelledRun EventLoop CoWorld

/-- `timerfd_settime` refuses an invalid time, and the time zero disarms. -/
def Itimerspec.arms (spec : Itimerspec) : Bool :=
  0 ≤ spec.itValue.tvSec ∧ 0 ≤ spec.itValue.tvNsec ∧ spec.itValue.tvNsec < 10 ^ 9 ∧
    (spec.itValue.tvSec ≠ 0 ∨ spec.itValue.tvNsec ≠ 0)

/-- The new descriptor, and what `timerfd_settime` and `epoll_ctl` made of it. -/
structure TimerAnswer where
  timerFd : Nat
  armed : Bool
  accepted : Bool
deriving DecidableEq, Repr

/-- Where the product of the constructor overflows, either answer is possible. -/
def TimerAnswer.Answers (answer : TimerAnswer) (timeout microSec : Int) : Prop :=
  ∀ spec ∈ timerNode timeout microSec, answer.armed = spec.arms

instance (answer : TimerAnswer) (timeout microSec : Int) :
    Decidable (answer.Answers timeout microSec) :=
  inferInstanceAs (Decidable (∀ spec ∈ timerNode timeout microSec, _))

structure AlarmWorld (Co Mutex : Type*) where
  world : CoWorld Co Mutex
  -- the timer of the last call of the coroutine was armed
  armed : Co → Bool

inductive AlarmLabel (Co Mutex : Type*)
  | world (label : WorldLabel Co Mutex)
  | unregisterNode (fd : Nat)
  | stopEventLoop
  | yieldByFd (fd : Nat) (microSec : Int) (accepted : Bool) (timer : Option TimerAnswer)
  | yieldByTimer (timeout microSec : Int) (answer : TimerAnswer)

namespace ScNode

variable {Co : Type*}

def timed : ScNode Co → Bool
  | coTimeout .. => true
  | coTimer .. => true
  | _ => false

end ScNode

def YieldCall.rings {Mutex : Type*} : YieldCall Mutex → Bool
  | inLock _ => false
  | _ => true

namespace AlarmWorld

variable {Co Mutex : Type*}

section Definitions

variable [DecidableEq Co] [DecidableEq Mutex]

def start : AlarmWorld Co Mutex :=
  ⟨CoWorld.start, fun _ => false⟩

def register (world : CoWorld Co Mutex) (accepted : Bool) (fd : Nat) (node : ScNode Co) :
    CoWorld Co Mutex :=
  if accepted then world.registerNode fd node else world

/-- The constructor of `AD_CO_EVENT_NODE` starts the timer first. -/
def startTimeout (world : CoWorld Co Mutex) (co : Co) (fd : Nat) :
    Option TimerAnswer → CoWorld Co Mutex
  | some answer => register world answer.accepted answer.timerFd
      (.coTimeout answer.timerFd fd co world.yieldCount)
  | none => world

def yieldByFd (alarms : AlarmWorld Co Mutex) (co : Co) (fd : Nat) (accepted : Bool)
    (timer : Option TimerAnswer) : AlarmWorld Co Mutex where
  world :=
    let timerFd := timer.map TimerAnswer.timerFd
    (register (startTimeout alarms.world co fd timer) accepted fd
      (.coEvent fd co alarms.world.yieldCount timerFd)).suspend co (.byFd fd timerFd)
  armed := Function.update alarms.armed co (timer.any TimerAnswer.armed)

def yieldByTimer (alarms : AlarmWorld Co Mutex) (co : Co) (answer : TimerAnswer) :
    AlarmWorld Co Mutex where
  world :=
    (register alarms.world answer.accepted answer.timerFd
      (.coTimer answer.timerFd co alarms.world.yieldCount)).suspend co (.byTimer answer.timerFd)
  armed := Function.update alarms.armed co answer.armed

def step (alarms : AlarmWorld Co Mutex) : AlarmLabel Co Mutex → Option (AlarmWorld Co Mutex)
  | .world (.yieldByFd ..) | .world (.yieldByTimer _) | .world (.unregisterOther _) => none
  | .world label => (CoWorld.step alarms.world label).map fun world => { alarms with world }
  | .unregisterNode fd =>
      if alarms.world.loop.phase = .outside ∨ alarms.world.program.isSome then
        some { alarms with world := alarms.world.unregisterNode fd }
      else none
  | .stopEventLoop =>
      if alarms.world.loop.phase = .outside ∨ alarms.world.program.isSome then
        some { alarms with
          world := { alarms.world with loop := { alarms.world.loop with fdToNode := [] } } }
      else none
  | .yieldByFd fd microSec accepted timer =>
      alarms.world.program.bind fun co =>
        if (timer.isSome ↔ 0 < microSec) ∧ ∀ answer ∈ timer, answer.Answers 0 microSec then
          some (alarms.yieldByFd co fd accepted timer)
        else none
  | .yieldByTimer timeout microSec answer =>
      alarms.world.program.bind fun co =>
        if answer.Answers timeout microSec then some (alarms.yieldByTimer co answer) else none

end Definitions

variable {alarms next : AlarmWorld Co Mutex} {world after : CoWorld Co Mutex} {co : Co}
  {yieldNo : Nat} {call : YieldCall Mutex}

/-- A registered node of the call; the one of a timer counts if the timer is armed. -/
def Alarm (alarms : AlarmWorld Co Mutex) (co : Co) (yieldNo : Nat) (call : YieldCall Mutex)
    (fd : Nat) : Prop :=
  ∃ node, alarms.world.loop.lookupNode fd = some node ∧
    node.source = some (co, yieldNo, call) ∧ (node.timed = true → alarms.armed co = true)

def Alarmed (alarms : AlarmWorld Co Mutex) : Prop :=
  ∀ co yieldNo call, call.rings = true → SuspendedIn alarms.world co yieldNo call →
    ∃ fd, alarms.Alarm co yieldNo call fd

/-- Each sleeping coroutine that stays keeps an alarm at a descriptor that stays. -/
def Spares (alarms : AlarmWorld Co Mutex) (gone : Nat → Prop) (leaves : Co → Prop) : Prop :=
  ∀ co yieldNo call, call.rings = true → ¬leaves co → SuspendedIn alarms.world co yieldNo call →
    ∃ fd, ¬gone fd ∧ alarms.Alarm co yieldNo call fd

def Sounds (alarms : AlarmWorld Co Mutex) (answer : TimerAnswer) : Prop :=
  answer.armed = true ∧ answer.accepted = true ∧
    alarms.world.loop.lookupNode answer.timerFd = none

def KeepsAlarms (alarms : AlarmWorld Co Mutex) : AlarmLabel Co Mutex → Prop
  | .world .handleEvent =>
      ∀ co ∈ alarms.world.loop.currentCo, ∀ node ∈ alarms.world.loop.task co,
        alarms.Spares (· ∈ node.cleared) fun which => node.owner = some which ∨ which = co
  | .world _ => True
  | .unregisterNode fd => alarms.Spares (· = fd) fun _ => False
  | .stopEventLoop => alarms.Spares (fun _ => True) fun _ => False
  | .yieldByFd fd _ accepted timer =>
      (alarms.world.loop.lookupNode fd = none ∧ accepted = true ∧
        ∀ answer ∈ timer, answer.accepted = true → answer.timerFd ≠ fd) ∨
      ∃ answer ∈ timer, alarms.Sounds answer
  | .yieldByTimer _ _ answer => alarms.Sounds answer

/-- Nothing is refused, and a program unregisters only nodes of other kinds. -/
def Succeeds (alarms : AlarmWorld Co Mutex) : AlarmLabel Co Mutex → Prop
  | .world _ => True
  | .unregisterNode fd => (alarms.world.loop.lookupNode fd).all fun node => !node.internal
  | .stopEventLoop => False
  | .yieldByFd fd _ accepted timer =>
      accepted = true ∧ alarms.world.loop.lookupNode fd = none ∧ ∀ answer ∈ timer,
        answer.accepted = true ∧ answer.timerFd ≠ fd ∧
          alarms.world.loop.lookupNode answer.timerFd = none
  | .yieldByTimer _ _ answer =>
      answer.accepted = true ∧ alarms.world.loop.lookupNode answer.timerFd = none

/-- The nodes are of calls that were made before. -/
def Dated (world : CoWorld Co Mutex) : Prop :=
  ∀ fd node, world.loop.lookupNode fd = some node → ∀ co yieldNo (call : YieldCall Mutex),
    node.source = some (co, yieldNo, call) → yieldNo < world.yieldCount

/-- Nobody falls asleep in a `yield_by_*`, and only other nodes come or go. -/
structure Calm (world after : CoWorld Co Mutex) : Prop where
  asleep : ∀ co yieldNo call, call.rings = true → SuspendedIn after co yieldNo call →
    SuspendedIn world co yieldNo call
  kept : ∀ fd node, world.loop.lookupNode fd = some node → after.loop.lookupNode fd = some node
  made : ∀ fd node, after.loop.lookupNode fd = some node →
    world.loop.lookupNode fd = some node ∨ node = .other
  yieldCount : world.yieldCount ≤ after.yieldCount

theorem Calm.alarmed (calm : Calm alarms.world after) (alarmed : alarms.Alarmed) :
    Alarmed { alarms with world := after } := by
  intro co yieldNo call rings inside
  obtain ⟨fd, node, found, source, armed⟩ :=
    alarmed co yieldNo call rings (calm.asleep co yieldNo call rings inside)
  exact ⟨fd, node, calm.kept fd node found, source, armed⟩

theorem Calm.dated (calm : Calm world after) (dated : Dated world) : Dated after := by
  intro fd node found co yieldNo call source
  rcases calm.made fd node found with before | rfl
  · exact Nat.lt_of_lt_of_le (dated fd node before co yieldNo call source) calm.yieldCount
  · simp [ScNode.source] at source

theorem calm_of_coState (lookup : after.loop.lookupNode = world.loop.lookupNode)
    (yieldCount : after.yieldCount = world.yieldCount)
    (asleep : ∀ co yieldNo call, call.rings = true → SuspendedIn after co yieldNo call →
      SuspendedIn world co yieldNo call) : Calm world after :=
  ⟨asleep, fun fd node found => by rw [lookup, found], fun fd node found =>
    .inl (by rw [← lookup, found]), Nat.le_of_eq yieldCount.symm⟩

theorem registerOther_calm (fd : Nat) : Calm world (world.registerNode fd .other) := by
  refine ⟨fun which yieldNo call _ inside => ?_, fun key node found => ?_,
    fun key node found => ?_, Nat.le_refl _⟩
  · simpa [SuspendedIn, CoWorld.registerNode] using inside
  · exact lookupNode_registerNode_of_some found
  · rcases lookupNode_registerNode_cases found with before | ⟨-, new⟩
    · exact .inl before
    · exact .inr new

section Steps

variable [DecidableEq Co]

theorem turn_calm {label : LoopLabel Co (ScNode Co)} {loop : EventLoop Co (ScNode Co)}
    (other : label ≠ .resumeNext) (moved : world.loop.stepLoop label = some loop) :
    Calm world { world with loop } := by
  obtain ⟨fdToNode, same | ⟨fd, node, added, -, -, -, rfl⟩⟩ := stepLoop_cases other moved
  · refine calm_of_coState ?_ rfl fun co yieldNo call _ inside => ?_
    · funext fd
      simp only [lookupNode, fdToNode]
    · exact ⟨by rw [← same.coState]; exact inside.1, inside.2⟩
  · refine calm_of_coState rfl rfl fun co yieldNo call _ inside => ⟨?_, inside.2⟩
    have state := inside.1
    by_cases own : co = added
    · simp [EventLoop.addCo, own] at state
    · simpa [EventLoop.addCo, own] using state

theorem resume_calm {loop : EventLoop Co (ScNode Co)}
    (moved : world.loop.stepLoop .resumeNext = some loop) (current : loop.currentCo = some co) :
    Calm world (world.resume loop co) := by
  obtain ⟨resumed, rest, still, -, -, now, rfl⟩ := stepLoop_resumeNext moved
  obtain rfl : resumed = co := Option.some.inj (now.symm.trans current)
  refine calm_of_coState rfl rfl fun which yieldNo call _ inside => ?_
  have apart : which ≠ resumed := by
    rintro rfl
    simpa [resume] using inside.2
  simpa [SuspendedIn, resume, resumeCo, setCoState, apart] using inside

theorem addCo_calm :
    Calm world { world with loop := world.loop.addCo co none } := by
  refine calm_of_coState rfl rfl fun which yieldNo call _ inside => ⟨?_, inside.2⟩
  have state := inside.1
  by_cases own : which = co
  · simp [EventLoop.addCo, own] at state
  · simpa [EventLoop.addCo, own] using state

theorem leaveTurn_calm (state : AcrState) (left : state ≠ .suspend) :
    Calm world { world with loop := world.loop.leaveTurn co state } := by
  refine calm_of_coState rfl rfl fun which yieldNo call _ inside => ⟨?_, inside.2⟩
  have asleep := inside.1
  by_cases own : which = co
  · simp [leaveTurn, setCoState, own, left] at asleep
  · simpa [leaveTurn, setCoState, own] using asleep

theorem lookupNode_handled {node found : ScNode Co} {fd : Nat} :
    ((world.handleNode node).loop.leaveTurn co .dead).lookupNode fd = some found ↔
      fd ∉ node.cleared ∧ world.loop.lookupNode fd = some found := by
  have looks : ((world.handleNode node).loop.leaveTurn co .dead).lookupNode fd =
      if fd ∈ node.cleared then none else world.loop.lookupNode fd := lookupNode_handleNode node
  rw [looks]
  exact Option.ite_none_left_eq_some

theorem suspendedIn_handled {node : ScNode Co} {which : Co} :
    SuspendedIn { world.handleNode node with
      loop := (world.handleNode node).loop.leaveTurn co .dead } which yieldNo call ↔
      SuspendedIn world which yieldNo call ∧ ¬(node.owner = some which ∨ which = co) := by
  simp only [SuspendedIn, leaveTurn, setCoState, yielding_handleNode, coState_handleNode,
    Function.update_apply]
  by_cases own : which = co
  · simp [own]
  · by_cases owner : node.owner = some which <;> simp [owner, own]

variable [DecidableEq Mutex] {mutex : Mutex}

theorem testHolder_calm : Calm world (world.testHolder co mutex) := by
  unfold testHolder
  split
  · refine ⟨fun which yieldNo call rings inside => ?_, fun _ _ found => found,
      fun _ _ found => .inl found, by simp [waitInLock, suspend, setMutex]⟩
    have apart : which ≠ co := by
      rintro rfl
      have own := inside.2
      simp only [waitInLock, suspend, Function.update_self, Option.some.injEq,
        Prod.mk.injEq] at own
      simp [← own.2, YieldCall.rings] at rings
    simpa [SuspendedIn, waitInLock, suspend, setMutex, leaveTurn, setCoState, apart] using inside
  · exact calm_of_coState rfl rfl fun _ _ _ _ inside => inside

theorem retry_calm {retrying : Co → Option Mutex} :
    Calm world ({ world with retrying }.testHolder co mutex) := by
  have tests : Calm { world with retrying } ({ world with retrying }.testHolder co mutex) :=
    testHolder_calm
  exact ⟨tests.asleep, tests.kept, tests.made, tests.yieldCount⟩

theorem lock_calm : Calm world (world.lock co mutex) := by
  unfold lock
  split
  · exact testHolder_calm
  · exact calm_of_coState rfl rfl fun _ _ _ _ inside => inside

theorem unlock_calm : Calm world (world.unlock mutex) := by
  simp only [unlock]
  split
  · rename_i woken yieldNo others _ _
    refine calm_of_coState rfl rfl fun which number call _ inside => ⟨?_, inside.2⟩
    have asleep := inside.1
    by_cases own : which = woken
    · simp [setReady, setCoState, own] at asleep
    · simpa [setReady, setMutex, setCoState, own] using asleep
  · exact calm_of_coState rfl rfl fun _ _ _ _ inside => inside

/-- What a step of the world does, the refusable calls apart. -/
theorem world_cases {label : WorldLabel Co Mutex} (taken : step alarms (.world label) = some next) :
    (∃ after, next = { alarms with world := after } ∧ Calm alarms.world after ∧
      label ≠ .handleEvent) ∨
    label = .handleEvent ∧ ∃ co node, alarms.world.loop.currentCo = some co ∧
      alarms.world.loop.task co = some node ∧
      next = { alarms with world := { alarms.world.handleNode node with
        loop := (alarms.world.handleNode node).loop.leaveTurn co .dead } } := by
  have calm {after : CoWorld Co Mutex} (other : label ≠ .handleEvent)
      (calm : Calm alarms.world after) : ∃ after', ({ alarms with world := after } :
        AlarmWorld Co Mutex) = { alarms with world := after' } ∧ Calm alarms.world after' ∧
        label ≠ .handleEvent := ⟨after, rfl, calm, other⟩
  cases label with
  | yieldByFd | yieldByTimer | unregisterOther => simp [step] at taken
  | turn label =>
      obtain ⟨after, moved, rfl⟩ := Option.map_eq_some_iff.mp taken
      by_cases other : label = .resumeNext
      · simp [CoWorld.step, other] at moved
      · rw [step_turn other] at moved
        obtain ⟨loop, turned, rfl⟩ := Option.map_eq_some_iff.mp moved
        exact .inl (calm (by simp) (turn_calm other turned))
  | resumeNext =>
      obtain ⟨after, moved, rfl⟩ := Option.map_eq_some_iff.mp taken
      obtain ⟨loop, turned, rest⟩ := Option.bind_eq_some_iff.mp moved
      obtain ⟨co, current, rfl⟩ := Option.map_eq_some_iff.mp rest
      exact .inl (calm (by simp) (resume_calm turned current))
  | handleEvent =>
      obtain ⟨after, moved, rfl⟩ := Option.map_eq_some_iff.mp taken
      obtain ⟨co, current, rest⟩ := Option.bind_eq_some_iff.mp moved
      obtain ⟨node, task, handled⟩ := Option.bind_eq_some_iff.mp rest
      simp only [Option.ite_none_right_eq_some, Option.some.injEq] at handled
      obtain ⟨-, rfl⟩ := handled
      exact .inr ⟨rfl, co, node, current, task, rfl⟩
  | addCo co =>
      obtain ⟨after, moved, rfl⟩ := Option.map_eq_some_iff.mp taken
      simp only [CoWorld.step, Option.ite_none_right_eq_some, Option.some.injEq] at moved
      obtain ⟨-, rfl⟩ := moved
      exact .inl (calm (by simp) addCo_calm)
  | registerOther fd =>
      obtain ⟨after, moved, rfl⟩ := Option.map_eq_some_iff.mp taken
      simp only [CoWorld.step, Option.ite_none_right_eq_some, Option.some.injEq] at moved
      obtain ⟨-, rfl⟩ := moved
      exact .inl (calm (by simp) (registerOther_calm fd))
  | retry =>
      obtain ⟨after, moved, rfl⟩ := Option.map_eq_some_iff.mp taken
      obtain ⟨co, -, rest⟩ := Option.bind_eq_some_iff.mp moved
      obtain ⟨mutex, -, tested⟩ := Option.bind_eq_some_iff.mp rest
      simp only [Option.ite_none_right_eq_some, Option.some.injEq] at tested
      obtain ⟨-, rfl⟩ := tested
      exact .inl (calm (by simp) retry_calm)
  | lock mutex =>
      obtain ⟨after, moved, rfl⟩ := Option.map_eq_some_iff.mp taken
      obtain ⟨co, -, moved⟩ := Option.bind_eq_some_iff.mp moved
      obtain rfl := Option.some.inj moved
      exact .inl (calm (by simp) lock_calm)
  | unlock mutex =>
      obtain ⟨after, moved, rfl⟩ := Option.map_eq_some_iff.mp taken
      obtain ⟨co, -, moved⟩ := Option.bind_eq_some_iff.mp moved
      obtain rfl := Option.some.inj moved
      exact .inl (calm (by simp) unlock_calm)
  | finish =>
      obtain ⟨after, moved, rfl⟩ := Option.map_eq_some_iff.mp taken
      obtain ⟨co, -, moved⟩ := Option.bind_eq_some_iff.mp moved
      obtain rfl := Option.some.inj moved
      exact .inl (calm (by simp) (leaveTurn_calm .dead (by simp)))

end Steps

section Yields

structure Registered (world base : CoWorld Co Mutex) : Prop where
  coState : base.loop.coState = world.loop.coState
  yielding : base.yielding = world.yielding
  yieldCount : base.yieldCount = world.yieldCount
  kept : ∀ fd node, world.loop.lookupNode fd = some node → base.loop.lookupNode fd = some node

variable {base : CoWorld Co Mutex} {accepted : Bool} {fd other : Nat} {node found : ScNode Co}

theorem Registered.refl (world : CoWorld Co Mutex) : Registered world world :=
  ⟨rfl, rfl, rfl, fun _ _ found => found⟩

theorem Registered.register (registered : Registered world base) (accepted : Bool) (fd : Nat)
    (node : ScNode Co) : Registered world (register base accepted fd node) := by
  unfold AlarmWorld.register
  split
  · exact ⟨coState_registerNode.trans registered.coState, registered.yielding,
      registered.yieldCount, fun other known found =>
        lookupNode_registerNode_of_some (registered.kept other known found)⟩
  · exact registered

theorem lookupNode_register (looks : (register world accepted fd node).loop.lookupNode other =
      some found) : world.loop.lookupNode other = some found ∨
        (accepted = true ∧ world.loop.lookupNode fd = none) ∧ other = fd ∧ found = node := by
  unfold register at looks
  split at looks
  · rename_i taken
    rcases lookupNode_registerNode_cases looks with before | ⟨⟨free, own⟩, new⟩
    · exact .inl before
    · exact .inr ⟨⟨taken, free⟩, own, new⟩
  · exact .inl looks

theorem lookupNode_register_new (free : world.loop.lookupNode fd = none) :
    (register world true fd node).loop.lookupNode fd = some node := by
  simp [register, CoWorld.registerNode, EventLoop.lookupNode_registerNode free]

theorem startTimeout_registered (timer : Option TimerAnswer) :
    Registered world (startTimeout world co fd timer) := by
  cases timer with
  | none => exact Registered.refl world
  | some answer => exact (Registered.refl world).register _ _ _

/-- The timer leaves the descriptor free, unless `timerfd_create` gave that very number. -/
theorem startTimeout_free_iff {timer : Option TimerAnswer} :
    (startTimeout world co fd timer).loop.lookupNode fd = none ↔
      world.loop.lookupNode fd = none ∧
        ∀ answer ∈ timer, answer.accepted = true → answer.timerFd ≠ fd := by
  constructor
  · intro free
    have unheld : world.loop.lookupNode fd = none := by
      by_contra held
      obtain ⟨holder, holds⟩ := Option.ne_none_iff_exists'.mp held
      simp [(startTimeout_registered timer).kept fd holder holds] at free
    refine ⟨unheld, ?_⟩
    rintro answer rfl accepted rfl
    simp [startTimeout, accepted, lookupNode_register_new unheld] at free
  · rintro ⟨free, apart⟩
    cases timer with
    | none => exact free
    | some answer =>
        by_contra taken
        obtain ⟨holder, holds⟩ := Option.ne_none_iff_exists'.mp taken
        rcases lookupNode_register holds with before | ⟨⟨accepted, -⟩, own, -⟩
        · simp [free] at before
        · exact apart answer rfl accepted own.symm

theorem Dated.not_source (dated : Dated world) (known : world.loop.lookupNode fd = some node) :
    node.source ≠ some (co, world.yieldCount, call) := fun source =>
  absurd (dated fd node known co world.yieldCount call source) (Nat.lt_irrefl _)

def Left (base : CoWorld Co Mutex) (co : Co) (call : YieldCall Mutex) (armed : Bool) : Prop :=
  ∃ fd node, base.loop.lookupNode fd = some node ∧
    node.source = some (co, base.yieldCount, call) ∧ (node.timed = true → armed = true)

theorem yieldByTimer_left_iff {answer : TimerAnswer} (dated : Dated alarms.world) :
    Left (register alarms.world answer.accepted answer.timerFd
        (.coTimer answer.timerFd co alarms.world.yieldCount)) co
      (.byTimer answer.timerFd) answer.armed ↔ alarms.Sounds answer := by
  have registered := (Registered.refl alarms.world).register answer.accepted answer.timerFd
    (.coTimer answer.timerFd co alarms.world.yieldCount)
  simp only [Left, registered.yieldCount]
  constructor
  · rintro ⟨key, node, found, source, timed⟩
    rcases lookupNode_register found with before | ⟨⟨taken, free⟩, rfl, rfl⟩
    · exact absurd source (dated.not_source before)
    · exact ⟨timed rfl, taken, free⟩
  · rintro ⟨armed, taken, free⟩
    rw [taken]
    exact ⟨answer.timerFd, _, lookupNode_register_new free, rfl, fun _ => armed⟩

theorem yieldByFd_left_iff {timer : Option TimerAnswer} (dated : Dated alarms.world) :
    Left (register (startTimeout alarms.world co fd timer) accepted fd
        (.coEvent fd co alarms.world.yieldCount (timer.map TimerAnswer.timerFd))) co
      (.byFd fd (timer.map TimerAnswer.timerFd)) (timer.any TimerAnswer.armed) ↔
      (alarms.world.loop.lookupNode fd = none ∧ accepted = true ∧
        ∀ answer ∈ timer, answer.accepted = true → answer.timerFd ≠ fd) ∨
      ∃ answer ∈ timer, alarms.Sounds answer := by
  have started : Registered alarms.world (startTimeout alarms.world co fd timer) :=
    startTimeout_registered timer
  simp only [Left, (started.register accepted fd _).yieldCount]
  constructor
  · rintro ⟨key, node, found, source, timed⟩
    rcases lookupNode_register found with before | ⟨⟨taken, free⟩, rfl, rfl⟩
    · cases timer with
      | none => exact absurd source (dated.not_source before)
      | some answer =>
          rcases lookupNode_register before with older | ⟨⟨taken, free⟩, rfl, rfl⟩
          · exact absurd source (dated.not_source older)
          · exact .inr ⟨answer, rfl, timed rfl, taken, free⟩
    · obtain ⟨unheld, apart⟩ := startTimeout_free_iff.mp free
      exact .inl ⟨unheld, taken, apart⟩
  · rintro (⟨free, rfl, apart⟩ | ⟨answer, rfl, armed, taken, free⟩)
    · exact ⟨fd, _, lookupNode_register_new (startTimeout_free_iff.mpr ⟨free, apart⟩), rfl,
        by simp [ScNode.timed]⟩
    · have timed : (startTimeout alarms.world co fd (some answer)).loop.lookupNode
          answer.timerFd = some (.coTimeout answer.timerFd fd co alarms.world.yieldCount) := by
        simp only [startTimeout, taken]
        exact lookupNode_register_new free
      exact ⟨answer.timerFd, _, ((Registered.refl _).register accepted fd _).kept _ _ timed, rfl,
        fun _ => armed⟩

variable [DecidableEq Co] {armed : Bool}

theorem suspend_dated (dated : Dated world) (registered : Registered world base)
    (made : ∀ fd node, base.loop.lookupNode fd = some node →
      world.loop.lookupNode fd = some node ∨
        ∃ which, ∃ call : YieldCall Mutex, node.source = some (which, world.yieldCount, call)) :
    Dated (base.suspend co call) := by
  intro fd node found which yieldNo other source
  have bound : yieldNo < world.yieldCount + 1 := by
    rcases made fd node found with before | ⟨_, _, new⟩
    · exact Nat.lt_succ_of_lt (dated fd node before which yieldNo other source)
    · simp only [new, Option.some.injEq, Prod.mk.injEq] at source
      omega
  simpa only [suspend, registered.yieldCount] using bound

theorem suspend_alarmed_iff (alarmed : alarms.Alarmed) (rings : call.rings = true)
    (registered : Registered alarms.world base) :
    Alarmed ⟨base.suspend co call, Function.update alarms.armed co armed⟩ ↔
      Left base co call armed := by
  constructor
  · intro after
    obtain ⟨fd, node, found, source, timed⟩ := after co base.yieldCount call rings
      (by simp [SuspendedIn, suspend, leaveTurn, setCoState])
    exact ⟨fd, node, found, source, by simpa using timed⟩
  · rintro ⟨fd, node, found, source, timed⟩ which yieldNo other ringing inside
    by_cases own : which = co
    · subst own
      simp only [SuspendedIn, suspend, Function.update_self, Option.some.injEq,
        Prod.mk.injEq] at inside
      obtain ⟨-, rfl, rfl⟩ := inside
      exact ⟨fd, node, found, source, by simpa using timed⟩
    · have slept : SuspendedIn alarms.world which yieldNo other := by
        simpa [SuspendedIn, suspend, leaveTurn, setCoState, own, registered.coState,
          registered.yielding] using inside
      obtain ⟨key, known, before, known', armed'⟩ := alarmed which yieldNo other ringing slept
      exact ⟨key, known, registered.kept key known before, known', by simpa [own] using armed'⟩

end Yields

theorem start_alarmed [DecidableEq Co] : Alarmed (start : AlarmWorld Co Mutex) := by
  intro co yieldNo call _ inside
  simp [SuspendedIn, start, CoWorld.start, EventLoop.start] at inside

theorem start_dated [DecidableEq Co] : Dated (start : AlarmWorld Co Mutex).world := by
  simp [Dated, start, CoWorld.start, EventLoop.start, lookupNode]

/-- Where some descriptors go and some coroutines wake, the others must be spared. -/
theorem alarmed_iff_spares {gone : Nat → Prop} {leaves : Co → Prop}
    (lookup : ∀ fd node, after.loop.lookupNode fd = some node ↔
      ¬gone fd ∧ alarms.world.loop.lookupNode fd = some node)
    (asleep : ∀ co yieldNo call, SuspendedIn after co yieldNo call ↔
      SuspendedIn alarms.world co yieldNo call ∧ ¬leaves co) :
    Alarmed { alarms with world := after } ↔ alarms.Spares gone leaves := by
  constructor
  · intro alarmed co yieldNo call rings stays inside
    obtain ⟨fd, node, found, source⟩ :=
      alarmed co yieldNo call rings ((asleep co yieldNo call).mpr ⟨inside, stays⟩)
    obtain ⟨still, before⟩ := (lookup fd node).mp found
    exact ⟨fd, still, node, before, source⟩
  · intro spares co yieldNo call rings inside
    obtain ⟨before, stays⟩ := (asleep co yieldNo call).mp inside
    obtain ⟨fd, still, node, found, source⟩ := spares co yieldNo call rings stays before
    exact ⟨fd, node, (lookup fd node).mpr ⟨still, found⟩, source⟩

theorem dated_of_removed (dated : Dated world)
    (lookup : ∀ fd node, after.loop.lookupNode fd = some node →
      world.loop.lookupNode fd = some node)
    (yieldCount : after.yieldCount = world.yieldCount) : Dated after := by
  intro fd node found co yieldNo call source
  rw [yieldCount]
  exact dated fd node (lookup fd node found) co yieldNo call source

section Runs

variable [DecidableEq Co] [DecidableEq Mutex] {label : AlarmLabel Co Mutex}

/-- What a label of its own finds, and what it leaves. -/
theorem step_cases : step alarms label = some next →
    match label with
    | .world label => step alarms (.world label) = some next
    | .unregisterNode fd => (alarms.world.loop.phase = .outside ∨ alarms.world.program.isSome) ∧
        { alarms with world := alarms.world.unregisterNode fd } = next
    | .stopEventLoop =>
        { alarms with
          world := { alarms.world with loop := { alarms.world.loop with fdToNode := [] } } } = next
    | .yieldByFd fd _ accepted timer => ∃ co, alarms.world.program = some co ∧
        alarms.yieldByFd co fd accepted timer = next
    | .yieldByTimer _ _ answer => ∃ co, alarms.world.program = some co ∧
        alarms.yieldByTimer co answer = next := by
  intro taken
  cases label with
  | world label => exact taken
  | unregisterNode fd =>
      simpa only [step, Option.ite_none_right_eq_some, Option.some.injEq] using taken
  | stopEventLoop =>
      simp only [step, Option.ite_none_right_eq_some, Option.some.injEq] at taken
      exact taken.2
  | yieldByFd fd microSec accepted timer =>
      obtain ⟨co, program, yields⟩ := Option.bind_eq_some_iff.mp taken
      simp only [Option.ite_none_right_eq_some, Option.some.injEq] at yields
      exact ⟨co, program, yields.2⟩
  | yieldByTimer timeout microSec answer =>
      obtain ⟨co, program, yields⟩ := Option.bind_eq_some_iff.mp taken
      simp only [Option.ite_none_right_eq_some, Option.some.injEq] at yields
      exact ⟨co, program, yields.2⟩

theorem step_dated (dated : Dated alarms.world) (taken : step alarms label = some next) :
    Dated next.world := by
  have found := step_cases taken
  cases label with
  | world label =>
      rcases world_cases taken with ⟨after, rfl, calm, -⟩ | ⟨-, co, node, -, -, rfl⟩
      · exact calm.dated dated
      · exact dated_of_removed dated (fun _ _ found => (lookupNode_handled.mp found).2)
          (yieldCount_handleNode node)
  | unregisterNode fd =>
      obtain ⟨-, rfl⟩ := found
      refine dated_of_removed dated (fun other node found => ?_) rfl
      exact (found_unregisterNode found).2
  | stopEventLoop =>
      subst found
      exact dated_of_removed dated (fun fd node found => by simp [lookupNode] at found) rfl
  | yieldByFd fd microSec accepted timer =>
      obtain ⟨co, -, rfl⟩ := found
      refine suspend_dated dated ((startTimeout_registered timer).register accepted fd _)
        fun key node found => ?_
      rcases lookupNode_register found with before | ⟨-, -, rfl⟩
      · cases timer with
        | none => exact .inl before
        | some answer =>
            rcases lookupNode_register before with older | ⟨-, -, rfl⟩
            · exact .inl older
            · exact .inr ⟨co, _, rfl⟩
      · exact .inr ⟨co, _, rfl⟩
  | yieldByTimer timeout microSec answer =>
      obtain ⟨co, -, rfl⟩ := found
      refine suspend_dated dated ((Registered.refl _).register _ _ _) fun key node found => ?_
      rcases lookupNode_register found with before | ⟨-, -, rfl⟩
      · exact .inl before
      · exact .inr ⟨co, _, rfl⟩

theorem step_alarmed_iff (alarmed : alarms.Alarmed) (dated : Dated alarms.world)
    (taken : step alarms label = some next) : next.Alarmed ↔ alarms.KeepsAlarms label := by
  have found := step_cases taken
  cases label with
  | world label =>
      rcases world_cases taken with ⟨after, rfl, calm, other⟩ | ⟨rfl, co, node, current, task, rfl⟩
      · refine iff_of_true (calm.alarmed alarmed) ?_
        cases label <;> trivial
      · simp only [KeepsAlarms, current, task, Option.mem_def, Option.some.injEq, forall_eq']
        exact alarmed_iff_spares (fun _ _ => lookupNode_handled) fun _ _ _ => suspendedIn_handled
  | unregisterNode fd =>
      obtain ⟨-, rfl⟩ := found
      refine alarmed_iff_spares (fun other node => ?_)
        fun _ _ _ => (and_iff_left not_false).symm
      rw [CoWorld.lookupNode_unregisterNode]
      exact Option.ite_none_left_eq_some
  | stopEventLoop =>
      subst found
      exact alarmed_iff_spares (fun other node => by simp [lookupNode])
        fun _ _ _ => (and_iff_left not_false).symm
  | yieldByFd fd microSec accepted timer =>
      obtain ⟨co, -, rfl⟩ := found
      have registered : Registered alarms.world (startTimeout alarms.world co fd timer) :=
        startTimeout_registered timer
      exact (suspend_alarmed_iff alarmed rfl (registered.register accepted fd _)).trans
        (yieldByFd_left_iff dated)
  | yieldByTimer timeout microSec answer =>
      obtain ⟨co, -, rfl⟩ := found
      exact (suspend_alarmed_iff alarmed rfl ((Registered.refl _).register _ _ _)).trans
        (yieldByTimer_left_iff dated)

structure Guarded (alarms : AlarmWorld Co Mutex) : Prop where
  alarmed : alarms.Alarmed
  dated : Dated alarms.world

theorem step_guarded (guarded : alarms.Guarded) (keeps : alarms.KeepsAlarms label)
    (taken : step alarms label = some next) : next.Guarded :=
  ⟨(step_alarmed_iff guarded.alarmed guarded.dated taken).mpr keeps,
    step_dated guarded.dated taken⟩

/-- In a run nobody ever sleeps without an alarm, exactly if every call leaves one that is
registered and armed and no call takes away the last one of another. -/
theorem always_alarmed_iff (labels : List (AlarmLabel Co Mutex)) (final : AlarmWorld Co Mutex)
    (run : exec step start labels = some final) :
    Always step Alarmed start labels ↔ Meets step KeepsAlarms start labels :=
  always_iff_meets (fun _ guarded => guarded.alarmed)
    (fun _ _ _ guarded keeps taken => step_guarded guarded keeps taken)
    (fun _ _ _ guarded taken after =>
      (step_alarmed_iff guarded.alarmed guarded.dated taken).mp after)
    ⟨start_alarmed, start_dated⟩ run

theorem step_world (succeeds : alarms.Succeeds label) (taken : step alarms label = some next) :
    ∃ plain, CoWorld.step alarms.world plain = some next.world := by
  have found := step_cases taken
  cases label with
  | world label =>
      cases label with
      | yieldByFd | yieldByTimer | unregisterOther => simp [step] at taken
      | turn | resumeNext | handleEvent | addCo | registerOther | lock | retry | unlock | finish =>
          obtain ⟨after, moved, rfl⟩ := Option.map_eq_some_iff.mp taken
          exact ⟨_, moved⟩
  | unregisterNode fd =>
      obtain ⟨acting, rfl⟩ := found
      exact ⟨.unregisterOther fd, if_pos ⟨acting, succeeds⟩⟩
  | stopEventLoop => exact succeeds.elim
  | yieldByFd fd microSec accepted timer =>
      obtain ⟨co, program, rfl⟩ := found
      obtain ⟨rfl, free, timers⟩ := succeeds
      refine ⟨.yieldByFd fd (timer.map TimerAnswer.timerFd), ?_⟩
      cases timer with
      | none =>
          simp [CoWorld.step, CoWorld.stepProgram, program, free, yieldByFd, startTimeout,
            register, CoWorld.yieldByFd]
      | some answer =>
          obtain ⟨taken, apart, unheld⟩ := timers answer rfl
          simp [CoWorld.step, CoWorld.stepProgram, program, free, apart, unheld, taken, yieldByFd,
            startTimeout, register, CoWorld.yieldByFd]
  | yieldByTimer timeout microSec answer =>
      obtain ⟨co, program, rfl⟩ := found
      obtain ⟨taken, unheld⟩ := succeeds
      refine ⟨.yieldByTimer answer.timerFd, ?_⟩
      simp [CoWorld.step, CoWorld.stepProgram, program, unheld, taken, yieldByTimer, register,
        CoWorld.yieldByTimer]

/-- As long as nothing is refused, the world is one of those in which registrations succeed. -/
theorem always_reachable (labels : List (AlarmLabel Co Mutex))
    (succeeds : Meets step Succeeds start labels) :
    Always step (fun alarms => Reachable CoWorld.step CoWorld.start alarms.world) start labels := by
  have preserved : ∀ (alarms : AlarmWorld Co Mutex) label next,
      Reachable CoWorld.step CoWorld.start alarms.world → alarms.Succeeds label →
        step alarms label = some next → Reachable CoWorld.step CoWorld.start next.world := by
    intro alarms label next reached succeeds taken
    obtain ⟨plain, moved⟩ := step_world succeeds taken
    exact reached.tail moved
  refine always_of_meets preserved ?_ succeeds
  exact Reachable.refl _

end Runs

/-- Coroutine 0 in its first turn, with a node of another kind at descriptor 3. -/
def firstTurn : List (AlarmLabel Nat Unit) :=
  [.world (.addCo 0), .world (.registerOther 3), .world (.turn .runEventLoop),
    .world (.turn .enter), .world (.turn .collect), .world .resumeNext]

def timedYield : AlarmLabel Nat Unit :=
  .yieldByFd 5 500 true (some ⟨6, true, true⟩)

theorem always_alarmed_iff_timedYield :
    Always step Alarmed (start : AlarmWorld Nat Unit) (firstTurn ++ [timedYield]) := by
  obtain ⟨final, run⟩ := Option.isSome_iff_exists.mp
    (show (exec step (start : AlarmWorld Nat Unit) (firstTurn ++ [timedYield])).isSome by rfl)
  refine (always_alarmed_iff _ final run).mpr ?_
  refine .cons rfl trivial <| .cons rfl trivial <| .cons rfl trivial <| .cons rfl trivial <|
    .cons rfl trivial <| .cons rfl trivial <| .cons rfl ?_ trivial
  exact .inl ⟨rfl, rfl, by simp⟩

theorem unalarmed_of_run {labels : List (AlarmLabel Nat Unit)} {call : YieldCall Unit}
    (rings : call.rings = true)
    (seen : (exec step (start : AlarmWorld Nat Unit) labels).map (fun alarms =>
      (alarms.world.loop.coState 0, alarms.world.yielding 0, alarms.armed 0,
        alarms.world.loop.fdToNode.all fun entry => entry.2.timed || !entry.2.internal)) =
      some (some .suspend, some (0, call), false, true)) :
    ∃ final, exec step (start : AlarmWorld Nat Unit) labels = some final ∧
      final.world.loop.coState 0 = some .suspend ∧ ¬final.Alarmed := by
  obtain ⟨final, run, data⟩ := Option.map_eq_some_iff.mp seen
  simp only [Prod.mk.injEq, List.all_eq_true, Bool.or_eq_true, Bool.not_eq_true'] at data
  obtain ⟨asleep, yielding, unarmed, silent⟩ := data
  refine ⟨final, run, asleep, fun alarmed => ?_⟩
  obtain ⟨fd, node, found, source, armed⟩ := alarmed 0 0 call rings ⟨asleep, yielding⟩
  obtain ⟨before, rest, entries, -⟩ := List.lookup_eq_some_iff.mp found
  rcases silent (fd, node) (by simp [entries]) with timed | plain
  · simp [armed timed] at unarmed
  · simp [(ScNode.source_eq_some source).1] at plain

/-- A call on a descriptor that another node holds, one with a timeout that the kernel
refuses, and a timer of no time: nothing is left that wakes the coroutine. -/
theorem alarmed_fails :
    (∃ final, exec step (start : AlarmWorld Nat Unit)
        (firstTurn ++ [.yieldByFd 3 0 true none]) = some final ∧
      final.world.loop.coState 0 = some .suspend ∧ ¬final.Alarmed) ∧
    (∃ final, exec step (start : AlarmWorld Nat Unit)
        (firstTurn ++ [.yieldByFd 3 1500 true (some ⟨6, false, true⟩)]) = some final ∧
      final.world.loop.coState 0 = some .suspend ∧ ¬final.Alarmed) ∧
    ∃ final, exec step (start : AlarmWorld Nat Unit)
        (firstTurn ++ [.yieldByTimer 0 0 ⟨6, false, true⟩]) = some final ∧
      final.world.loop.coState 0 = some .suspend ∧ ¬final.Alarmed := by
  have held : (YieldCall.byFd 3 none : YieldCall Unit).rings = true := rfl
  have timed : (YieldCall.byFd 3 (some 6) : YieldCall Unit).rings = true := rfl
  have timer : (YieldCall.byTimer 6 : YieldCall Unit).rings = true := rfl
  exact ⟨unalarmed_of_run held (by rfl), unalarmed_of_run timed (by rfl),
    unalarmed_of_run timer (by rfl)⟩

end AlarmWorld

end AutoDrop
