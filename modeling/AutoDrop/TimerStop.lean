import Mathlib.Data.List.Count
import AutoDrop.LabelledRun
import AutoDrop.EventLoopDispatch

/-!
`startTimer`, `stopTimer` and the callbacks of `AD_EVENT_SC_TIMER_NODE`. The handler that
`runEventLoop` adds for a timer begins its callback when it is first resumed, if the `read`
of the timerfd finds an expiration. The callback itself is the program of that coroutine.
-/

namespace AutoDrop

inductive TimedNode (Timer Other : Type*)
  | timer (timer : Timer)
  | other (node : Other)

structure TimerLoop (Co Timer Other : Type*) where
  loop : EventLoop Co (TimedNode Timer Other)
  -- `m_timer_fd` of the timers that were made
  timerFd : Timer → Option Nat
  -- the coroutines that were resumed before
  begun : Co → Bool
  -- whose callback began, the last one first
  invocations : List Timer

inductive TimerLabel (Co Timer Other : Type*)
  | loop (label : LoopLabel Co (TimedNode Timer Other))
  | resumeNext (expired : Bool)
  | startTimer (timer : Timer) (timerFd : Nat)
  | stopTimer (timer : Timer)

namespace TimerLoop

open LabelledRun EventLoop

variable {Co Timer Other : Type*}

section Definitions

variable [DecidableEq Co] [DecidableEq Timer]

def start : TimerLoop Co Timer Other where
  loop := EventLoop.start
  timerFd := fun _ => none
  begun := fun _ => false
  invocations := []

/-- The labels that neither resume a coroutine nor register a timer. -/
def plain : LoopLabel Co (TimedNode Timer Other) → Bool
  | .resumeNext | .registerNode _ (.timer _) => false
  | _ => true

/-- `resume_co`. A handler of a timer that is resumed for the first time enters
`AD_EVENT_SC_TIMER_NODE::handleEvent`. -/
def resume (world : TimerLoop Co Timer Other) (loop : EventLoop Co (TimedNode Timer Other))
    (co : Co) (expired : Bool) : TimerLoop Co Timer Other :=
  { world with
    loop
    begun := Function.update world.begun co true
    invocations := match world.begun co, world.loop.task co, expired with
      | false, some (.timer timer), true => timer :: world.invocations
      | _, _, _ => world.invocations }

def step (world : TimerLoop Co Timer Other) :
    TimerLabel Co Timer Other → Option (TimerLoop Co Timer Other)
  | .loop label =>
      if plain label then (world.loop.step label).map fun loop => { world with loop } else none
  | .resumeNext expired =>
      (world.loop.step .resumeNext).bind fun loop =>
        loop.currentCo.map fun co => world.resume loop co expired
  | .startTimer timer timerFd =>
      if world.timerFd timer = none then
        (world.loop.step (.registerNode timerFd (.timer timer))).map fun loop =>
          { world with loop, timerFd := Function.update world.timerFd timer (some timerFd) }
      else none
  | .stopTimer timer =>
      (world.timerFd timer).bind fun timerFd =>
        (world.loop.step (.unregisterNode timerFd)).map fun loop => { world with loop }

end Definitions

variable {world next stopped final : TimerLoop Co Timer Other} {timer : Timer} {co : Co}

/-- What a handler that never ran knows: it is the next to be resumed. -/
structure TimerInvariant (world : TimerLoop Co Timer Other) : Prop where
  loop : LoopInvariant world.loop
  held : ∀ fd timer, world.loop.lookupNode fd = some (.timer timer) →
    world.timerFd timer = some fd
  fresh : ∀ co, world.begun co = false →
    world.loop.coState co = none ∨ world.loop.coState co = some .ready
  imminent : ∀ co node, world.begun co = false → world.loop.coState co = some .ready →
    world.loop.task co = some node → Imminent world.loop co

/-- No registration and no handler of the timer is left that could begin its callback. -/
structure Silent (world : TimerLoop Co Timer Other) (timer : Timer) : Prop where
  made : world.timerFd timer ≠ none
  unregistered : ∀ fd, world.loop.lookupNode fd ≠ some (.timer timer)
  undue : ∀ co, world.begun co = false → world.loop.coState co = some .ready →
    world.loop.task co ≠ some (.timer timer)

theorem start_timerInvariant [DecidableEq Co] [DecidableEq Timer] :
    TimerInvariant (start : TimerLoop Co Timer Other) where
  loop := start_loopInvariant
  held := by simp [start, EventLoop.start, lookupNode]
  fresh := by simp [start, EventLoop.start]
  imminent := by simp [start, EventLoop.start]

theorem TimerInvariant.not_due (invariant : TimerInvariant world) (acting : world.loop.Acting)
    (unbegun : world.begun co = false) (ready : world.loop.coState co = some .ready)
    (node : TimedNode Timer Other) : world.loop.task co ≠ some node := fun task =>
  (invariant.imminent co node unbegun ready task).not_acting acting

theorem not_resumeNext_of_plain {label : LoopLabel Co (TimedNode Timer Other)}
    (isPlain : plain label = true) : label ≠ .resumeNext := by
  rintro rfl
  simp [plain] at isPlain

theorem not_registerNode_of_plain {label : LoopLabel Co (TimedNode Timer Other)}
    (isPlain : plain label = true) (fd : Nat) (timer : Timer) :
    label ≠ .registerNode fd (.timer timer) := by
  rintro rfl
  simp [plain] at isPlain

variable [DecidableEq Co]

section Loop

variable {label : LoopLabel Co (TimedNode Timer Other)}
  {loop : EventLoop Co (TimedNode Timer Other)}

theorem TimerInvariant.fresh_step (invariant : TimerInvariant world)
    (other : label ≠ .resumeNext) (taken : world.loop.step label = some loop)
    (unbegun : world.begun co = false) :
    loop.coState co = none ∨ loop.coState co = some .ready := by
  have fresh := invariant.fresh co unbegun
  cases step_coChange invariant.loop other taken co with
  | same coState => rwa [coState]
  | added _ ready => exact .inr ready
  | dispatched _ ready => exact .inr ready
  | woken _ ready => exact .inr ready
  | left running => simp [running] at fresh

/-- A coroutine that never ran and has a task was dispatched now, or before. -/
theorem TimerInvariant.due_step {node : TimedNode Timer Other} (invariant : TimerInvariant world)
    (other : label ≠ .resumeNext) (taken : world.loop.step label = some loop)
    (unbegun : world.begun co = false) (ready : loop.coState co = some .ready)
    (task : loop.task co = some node) :
    Imminent loop co ∧ (world.loop.coState co = some .ready ∧ world.loop.task co = some node ∨
      ∃ fd, world.loop.lookupNode fd = some node) := by
  cases step_coChange invariant.loop other taken co with
  | same coState sameTask =>
      rw [coState] at ready
      rw [sameTask] at task
      have imminent := invariant.imminent co node unbegun ready task
      rcases imminent.step invariant.loop taken with ⟨_, onward⟩ | ⟨resumed, _⟩
      · exact ⟨onward, .inl ⟨ready, task⟩⟩
      · exact absurd resumed other
  | added _ _ none => simp [none] at task
  | @dispatched fd found _ _ own registered imminent =>
      obtain rfl : found = node := Option.some.inj (own.symm.trans task)
      exact ⟨imminent, .inr ⟨fd, registered⟩⟩
  | woken suspended =>
      have fresh := invariant.fresh co unbegun
      simp [suspended] at fresh
  | left _ unready => exact absurd ready unready

theorem loop_timerInvariant (invariant : TimerInvariant world) (other : label ≠ .resumeNext)
    (untimed : ∀ fd timer, label ≠ .registerNode fd (.timer timer))
    (taken : world.loop.step label = some loop) : TimerInvariant { world with loop } := by
  refine ⟨step_loopInvariant invariant.loop taken, fun fd timer found => ?_,
    fun co unbegun => invariant.fresh_step other taken unbegun,
    fun co node unbegun ready task => (invariant.due_step other taken unbegun ready task).1⟩
  rcases step_lookupNode taken found with before | registered
  · exact invariant.held fd timer before
  · exact absurd registered (untimed fd timer)

theorem loop_silent (invariant : TimerInvariant world) (silent : Silent world timer)
    (other : label ≠ .resumeNext) (untimed : ∀ fd, label ≠ .registerNode fd (.timer timer))
    (taken : world.loop.step label = some loop) : Silent { world with loop } timer := by
  refine ⟨silent.made, fun fd found => ?_, fun co unbegun ready task => ?_⟩
  · rcases step_lookupNode taken found with before | registered
    · exact silent.unregistered fd before
    · exact untimed fd registered
  · obtain ⟨_, ⟨was, before⟩ | ⟨fd, registered⟩⟩ :=
      invariant.due_step other taken unbegun ready task
    · exact silent.undue co unbegun was before
    · exact silent.unregistered fd registered

end Loop

section Resume

variable {loop : EventLoop Co (TimedNode Timer Other)} {expired : Bool}

theorem resume_timerInvariant (invariant : TimerInvariant world)
    (taken : world.loop.step .resumeNext = some loop) (current : loop.currentCo = some co) :
    TimerInvariant (world.resume loop co expired) := by
  have loopInvariant := step_loopInvariant invariant.loop taken
  obtain ⟨resumed, rest, still, -, -, now, rfl⟩ := stepLoop_resumeNext taken
  obtain rfl : resumed = co := Option.some.inj (now.symm.trans current)
  have older {which : Co}
      (unbegun : Function.update world.begun resumed true which = false) :
      which ≠ resumed ∧ world.begun which = false := by
    by_cases same : which = resumed
    · simp [same] at unbegun
    · exact ⟨same, by simpa [same] using unbegun⟩
  refine ⟨loopInvariant, invariant.held, fun which unbegun => ?_,
    fun which node unbegun ready task => ?_⟩
  · obtain ⟨apart, before⟩ := older unbegun
    simpa [resume, resumeCo, setCoState, apart] using invariant.fresh which before
  · obtain ⟨apart, before⟩ := older unbegun
    have was : world.loop.coState which = some .ready := by
      simpa [resume, resumeCo, setCoState, apart] using ready
    -- the handler that was due is the one that is resumed
    rcases (invariant.imminent which node before was task).step invariant.loop taken with
      ⟨other, _⟩ | ⟨_, its⟩
    · exact absurd rfl other
    · exact absurd (Option.some.inj (its.symm.trans now)) apart

theorem resume_silent (silent : Silent world timer)
    (taken : world.loop.step .resumeNext = some loop) (current : loop.currentCo = some co) :
    Silent (world.resume loop co expired) timer := by
  obtain ⟨resumed, rest, still, -, -, now, rfl⟩ := stepLoop_resumeNext taken
  obtain rfl : resumed = co := Option.some.inj (now.symm.trans current)
  refine ⟨silent.made, silent.unregistered, fun which unbegun ready task => ?_⟩
  by_cases same : which = resumed
  · simp [resume, same] at unbegun
  · have before : world.begun which = false := by simpa [resume, same] using unbegun
    have was : world.loop.coState which = some .ready := by
      simpa [resume, resumeCo, setCoState, same] using ready
    exact silent.undue which before was task

theorem resume_invocations [DecidableEq Timer] (invariant : TimerInvariant world)
    (silent : Silent world timer) (taken : world.loop.step .resumeNext = some loop)
    (current : loop.currentCo = some co) :
    (world.resume loop co expired).invocations.count timer = world.invocations.count timer := by
  obtain ⟨resumed, rest, still, phase, -, now, -⟩ := stepLoop_resumeNext taken
  obtain rfl : resumed = co := Option.some.inj (now.symm.trans current)
  have ready := (invariant.loop.snapshot _ _ phase).2 resumed (by simp)
  simp only [resume]
  split
  · rename_i _ _ _ other unbegun task
    have apart : other ≠ timer := by
      rintro rfl
      exact silent.undue resumed unbegun ready task
    exact List.count_cons_of_ne apart
  · rfl

end Resume

/-- Past `stopTimer` no handler of the timer waits for its first turn: while a coroutine
runs, none that was dispatched does. -/
theorem stopTimer_silent {timerFd : Nat} {loop : EventLoop Co (TimedNode Timer Other)}
    (invariant : TimerInvariant world) (its : world.timerFd timer = some timerFd)
    (taken : world.loop.step (.unregisterNode timerFd) = some loop) :
    Silent { world with loop } timer := by
  simp only [EventLoop.step, Option.ite_none_right_eq_some, Option.some.injEq] at taken
  obtain ⟨acting, rfl⟩ := taken
  refine ⟨by simp [its], fun fd found => ?_, fun co unbegun ready =>
    invariant.not_due acting unbegun ready (.timer timer)⟩
  rw [lookupNode_unregisterNode] at found
  split at found
  · cases found
  · rename_i apart
    exact apart (Option.some.inj ((invariant.held fd timer found).symm.trans its))

variable [DecidableEq Timer]

theorem startTimer_timerInvariant {timerFd : Nat} {loop : EventLoop Co (TimedNode Timer Other)}
    (invariant : TimerInvariant world) (new : world.timerFd timer = none)
    (taken : world.loop.step (.registerNode timerFd (.timer timer)) = some loop) :
    TimerInvariant { world with
      loop, timerFd := Function.update world.timerFd timer (some timerFd) } := by
  refine ⟨step_loopInvariant invariant.loop taken, fun fd holder found => ?_,
    fun co unbegun => invariant.fresh_step (by simp) taken unbegun,
    fun co node unbegun ready task => (invariant.due_step (by simp) taken unbegun ready task).1⟩
  rcases step_lookupNode taken found with before | registered
  · have held := invariant.held fd holder before
    have apart : holder ≠ timer := fun same => by simp [same, new] at held
    simpa [apart] using held
  · simp only [LoopLabel.registerNode.injEq, TimedNode.timer.injEq] at registered
    obtain ⟨rfl, rfl⟩ := registered
    simp

theorem startTimer_silent {timerFd : Nat} {other : Timer}
    {loop : EventLoop Co (TimedNode Timer Other)} (invariant : TimerInvariant world)
    (silent : Silent world timer) (new : world.timerFd other = none)
    (taken : world.loop.step (.registerNode timerFd (.timer other)) = some loop) :
    Silent { world with
      loop, timerFd := Function.update world.timerFd other (some timerFd) } timer := by
  have apart : timer ≠ other := fun same => silent.made (same ▸ new)
  have kept : Silent { world with loop } timer :=
    loop_silent invariant silent (by simp) (by simp [Ne.symm apart]) taken
  exact ⟨by simpa [apart] using silent.made, kept.unregistered, kept.undue⟩

/-- What a step asks of the loop, and what it leaves. -/
theorem step_cases {label : TimerLabel Co Timer Other} : step world label = some next →
    match label with
    | .loop label => plain label = true ∧
        ∃ loop, world.loop.step label = some loop ∧ { world with loop } = next
    | .resumeNext expired => ∃ loop co, world.loop.step .resumeNext = some loop ∧
        loop.currentCo = some co ∧ world.resume loop co expired = next
    | .startTimer timer timerFd => world.timerFd timer = none ∧
        ∃ loop, world.loop.step (.registerNode timerFd (.timer timer)) = some loop ∧
          { world with
            loop, timerFd := Function.update world.timerFd timer (some timerFd) } = next
    | .stopTimer timer => ∃ timerFd loop, world.timerFd timer = some timerFd ∧
        world.loop.step (.unregisterNode timerFd) = some loop ∧ { world with loop } = next := by
  intro taken
  cases label with
  | loop label =>
      simpa only [step, Option.ite_none_right_eq_some, Option.map_eq_some_iff] using taken
  | resumeNext expired =>
      obtain ⟨loop, moved, rest⟩ := Option.bind_eq_some_iff.mp taken
      obtain ⟨co, current, same⟩ := Option.map_eq_some_iff.mp rest
      exact ⟨loop, co, moved, current, same⟩
  | startTimer timer timerFd =>
      simpa only [step, Option.ite_none_right_eq_some, Option.map_eq_some_iff] using taken
  | stopTimer timer =>
      obtain ⟨timerFd, its, rest⟩ := Option.bind_eq_some_iff.mp taken
      obtain ⟨loop, moved, same⟩ := Option.map_eq_some_iff.mp rest
      exact ⟨timerFd, loop, its, moved, same⟩

theorem step_timerInvariant {label : TimerLabel Co Timer Other}
    (invariant : TimerInvariant world) (taken : step world label = some next) :
    TimerInvariant next := by
  have found := step_cases taken
  cases label with
  | loop label =>
      obtain ⟨isPlain, loop, moved, rfl⟩ := found
      exact loop_timerInvariant invariant (not_resumeNext_of_plain isPlain)
        (not_registerNode_of_plain isPlain) moved
  | resumeNext expired =>
      obtain ⟨loop, co, moved, current, rfl⟩ := found
      exact resume_timerInvariant invariant moved current
  | startTimer timer timerFd =>
      obtain ⟨new, loop, moved, rfl⟩ := found
      exact startTimer_timerInvariant invariant new moved
  | stopTimer timer =>
      obtain ⟨timerFd, loop, -, moved, rfl⟩ := found
      exact loop_timerInvariant invariant (by simp) (by simp) moved

theorem step_silent {label : TimerLabel Co Timer Other} (invariant : TimerInvariant world)
    (silent : Silent world timer) (taken : step world label = some next) :
    Silent next timer ∧ next.invocations.count timer = world.invocations.count timer := by
  have found := step_cases taken
  cases label with
  | loop label =>
      obtain ⟨isPlain, loop, moved, rfl⟩ := found
      exact ⟨loop_silent invariant silent (not_resumeNext_of_plain isPlain)
        (fun fd => not_registerNode_of_plain isPlain fd timer) moved, rfl⟩
  | resumeNext expired =>
      obtain ⟨loop, co, moved, current, rfl⟩ := found
      exact ⟨resume_silent silent moved current,
        resume_invocations invariant silent moved current⟩
  | startTimer other timerFd =>
      obtain ⟨new, loop, moved, rfl⟩ := found
      exact ⟨startTimer_silent invariant silent new moved, rfl⟩
  | stopTimer other =>
      obtain ⟨timerFd, loop, -, moved, rfl⟩ := found
      exact ⟨loop_silent invariant silent (by simp) (by simp) moved, rfl⟩

structure SilentSince (timer : Timer) (count : Nat) (world : TimerLoop Co Timer Other) : Prop where
  invariant : TimerInvariant world
  silent : Silent world timer
  count : world.invocations.count timer = count

theorem step_silentSince {label : TimerLabel Co Timer Other} {count : Nat}
    (since : SilentSince timer count world) (taken : step world label = some next) :
    SilentSince timer count next := by
  obtain ⟨silent, same⟩ := step_silent since.invariant since.silent taken
  exact ⟨step_timerInvariant since.invariant taken, silent, same.trans since.count⟩

theorem reachable_timerInvariant (reached : Reachable step start world) :
    TimerInvariant world :=
  invariant_of_reachable start_timerInvariant
    (fun _ _ _ invariant taken => step_timerInvariant invariant taken) reached

/-- Behind a `stopTimer`, wherever a coroutine calls it, no invocation of the callback
begins any more. -/
theorem reachable_stopTimer (world stopped final : TimerLoop Co Timer Other) (timer : Timer)
    (reached : Reachable step start world) (stops : step world (.stopTimer timer) = some stopped)
    (runs : Reachable step stopped final) :
    final.invocations.count timer = stopped.invocations.count timer := by
  have invariant := reachable_timerInvariant reached
  have silent : Silent stopped timer := by
    obtain ⟨timerFd, loop, its, moved, rfl⟩ := step_cases stops
    exact stopTimer_silent invariant its moved
  have since : SilentSince timer (stopped.invocations.count timer) stopped :=
    ⟨step_timerInvariant invariant stops, silent, rfl⟩
  exact (invariant_of_reachable since
    (fun _ _ _ since taken => step_silentSince since taken) runs).count

/-- Coroutine 2 stops timer 1, whose first invocation 1 is suspended in a yield, in the turn
of the callback of timer 0; timer 1 had expired again by then. -/
def stoppedInside : List (TimerLabel Nat Nat Unit) :=
  [.startTimer 0 6, .startTimer 1 7, .loop .runEventLoop, .loop .enter, .loop .collect,
    .loop .sweep, .loop (.epollWait (some (7, 1))), .loop .enter, .loop .collect,
    .resumeNext true, .loop .yieldCo, .loop .sweep, .loop .collect, .loop .sweep,
    .loop (.epollWait (some (6, 2))), .loop .enter, .loop .collect, .resumeNext true]

def afterStop : List (TimerLabel Nat Nat Unit) :=
  [.loop (.setReady 1), .loop .finish, .loop .sweep, .loop .collect, .resumeNext true,
    .loop .finish, .loop .sweep, .loop .collect, .loop .sweep,
    .loop (.epollWait (some (7, 3))), .loop .enter, .loop .collect, .loop .sweep,
    .loop (.epollWait (some (6, 4))), .loop .enter, .loop .collect, .resumeNext true]

theorem reachable_stopTimer_stoppedInside :
    ∃ world stopped final, exec step (start : TimerLoop Nat Nat Unit) stoppedInside = some world ∧
      step world (.stopTimer 1) = some stopped ∧ exec step stopped afterStop = some final ∧
      final.invocations = [0, 0, 1] ∧
      final.invocations.count 1 = stopped.invocations.count 1 := by
  obtain ⟨world, run⟩ := Option.isSome_iff_exists.mp
    (show (exec step (start : TimerLoop Nat Nat Unit) stoppedInside).isSome by rfl)
  have seen : ((exec step (start : TimerLoop Nat Nat Unit) stoppedInside).bind fun world =>
      (step world (.stopTimer 1)).bind fun stopped =>
        (exec step stopped afterStop).map invocations) = some [0, 0, 1] := by rfl
  rw [run, Option.bind_some, Option.bind_eq_some_iff] at seen
  obtain ⟨stopped, stops, rest⟩ := seen
  obtain ⟨final, runs, invoked⟩ := Option.map_eq_some_iff.mp rest
  exact ⟨world, stopped, final, run, stops, runs, invoked,
    reachable_stopTimer world stopped final 1 ⟨stoppedInside, run⟩ stops ⟨afterStop, runs⟩⟩

end TimerLoop

end AutoDrop
