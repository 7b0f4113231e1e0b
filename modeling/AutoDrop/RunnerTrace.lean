import AutoDrop.RunnerSchedule

/-!
The hooks and the assignments of `m_current_state` of a whole run. `proc_event` looks the
event up before it takes the mutex, and the exit hook is that of the state it looked
at. While another coroutine still has a replacement of that state ahead, one of the two
exit hooks will run for an object that has been replaced.
-/

namespace AutoDrop

open LabelledRun CoSystem

namespace Hook

/-- What the coroutine relies on before it runs the hook. -/
def Ready (config : SmConfig) (phase : SmPhase) : Hook → Prop
  | first state | enter state => phase = .fresh state
  | act state => phase = .inside state
  | exit state next => phase = .inside state ∧ config.Edge state next
  | check _ _ => True

/-- What holds from the start of the hook to its `unlock_sm`. -/
def Ran (config : SmConfig) (phase : SmPhase) : Hook → Prop
  | first state | enter state | act state => phase = .inside state
  | exit state next => phase = .exited state ∧ config.Edge state next
  | check _ _ => True

def ahead (config : SmConfig) : Hook → Bool
  | first state | enter state | act state => (config.nextState 0 state).isSome
  | exit _ _ => true
  | check _ _ => false

end Hook

namespace Pc

def Fits (config : SmConfig) (phase : SmPhase) : Pc → Prop
  | begin | register | registered => phase = .fresh phase.state
  | beginUnlock => phase = .inside phase.state
  | call hook => hook.Ready config phase
  | lua hook | ret hook => hook.Ran config phase
  | procEvent _ | timer | timerLua | done => True

/-- The coroutine has the first hook of the run, or a replacement of the current state,
still ahead of it. -/
def ahead (config : SmConfig) (current : SmState) : Pc → Bool
  | begin | register | registered => true
  | beginUnlock => (config.nextState 0 current).isSome
  | call hook | lua hook | ret hook => hook.ahead config
  | procEvent _ | timer | timerLua | done => false

/-- The coroutine is to run an enter hook, or has run an exit hook. -/
def midway : Pc → Bool
  | begin | register | registered => true
  | call (.first _) | call (.enter _) => true
  | lua (.exit _ _) | ret (.exit _ _) => true
  | _ => false

variable {config : SmConfig} {phase : SmPhase} {pc : Pc}

theorem Fits.not_midway {state : SmState} (fits : pc.Fits config (.inside state)) :
    pc.midway = false := by
  cases pc with
  | begin | register | registered => cases fits
  | call hook | lua hook | ret hook =>
      cases hook <;> first | rfl | (simp [Fits, Hook.Ready, Hook.Ran] at fits)
  | beginUnlock | procEvent | timer | timerLua | done => rfl

theorem resting_cases (broken : pc.unbroken = false) (outside : pc.locks = 0) :
    pc = .begin ∨ (∃ state next, pc = .call (.exit state next)) ∨
      ∀ phase, pc.Fits config phase := by
  cases pc with
  | begin => exact .inl rfl
  | register | registered | beginUnlock => cases broken
  | procEvent | timer | timerLua | done => exact .inr (.inr fun _ => trivial)
  | call hook =>
      cases hook with
      | first | enter | act => cases broken
      | exit state next => exact .inr (.inl ⟨state, next, rfl⟩)
      | check => exact .inr (.inr fun _ => trivial)
  | lua hook => cases hook <;> cases outside
  | ret hook => cases broken

theorem ahead_of_midway {current : SmState} (midway : pc.midway = true)
    (broken : pc.unbroken = false) : pc.ahead config current = true := by
  cases pc with
  | begin => rfl
  | register | registered | beginUnlock | ret => cases broken
  | procEvent | timer | timerLua | done => cases midway
  | call hook =>
      cases hook with
      | first | enter | act => cases broken
      | exit | check => cases midway
  | lua hook =>
      cases hook with
      | exit => rfl
      | _ => cases midway

theorem ahead_of_resting {current later : SmState} (broken : pc.unbroken = false)
    (ahead : pc.ahead config later = true) : pc.ahead config current = true := by
  cases pc with
  | beginUnlock => cases broken
  | _ => exact ahead

end Pc

theorem Hook.Ready.run {config : SmConfig} {phase : SmPhase} {hook : Hook}
    (ready : hook.Ready config phase) :
    ∃ later, exec (SmPhase.step config) phase hook.traced = some later ∧
      hook.Ran config later ∧ later.state = phase.state := by
  cases hook with
  | first state | enter state =>
      cases ready
      exact ⟨.inside state, by simp [traced, exec, SmPhase.step], rfl, rfl⟩
  | act state =>
      cases ready
      exact ⟨.inside state, by simp [traced, exec, SmPhase.step], rfl, rfl⟩
  | exit state next =>
      obtain ⟨same, edge⟩ := ready
      cases same
      exact ⟨.exited state, by simp [traced, exec, SmPhase.step], ⟨rfl, edge⟩, rfl⟩
  | check => exact ⟨phase, rfl, trivial, rfl⟩

theorem SmConfig.nextState_isSome (config : SmConfig) (id other : Nat) (state : SmState) :
    (config.nextState id state).isSome = (config.nextState other state).isSome := by
  unfold nextState createSmState
  split
  · rfl
  · simp

namespace Runner

/-- An event that has an edge is looked up only while no other coroutine has the first hook or
a replacement of the current state ahead of it. -/
def NoneAhead (config : SmConfig) (runner : Runner) (label : RunnerLabel) : Prop :=
  label = .advance → ∀ co ∈ runner.system.currentCo, ∀ event,
    runner.pc co = .procEvent event →
    (config.getEventState runner.nextId runner.currentState event).isSome = true →
    ∀ other, other ≠ co → (runner.pc other).ahead config runner.currentState = false

/-- The trace is a run of the configured automaton, and ends at the current state. -/
def TraceLegal (config : SmConfig) (initial : SmState) (runner : Runner) : Prop :=
  (exec (SmPhase.step config) (.fresh initial) runner.trace).map SmPhase.state =
    some runner.currentState

instance (config : SmConfig) (initial : SmState) (runner : Runner) :
    Decidable (TraceLegal config initial runner) :=
  inferInstanceAs (Decidable (_ = _))

structure InTurn (config : SmConfig) (initial : SmState) (runner : Runner) (phase : SmPhase) :
    Prop where
  legal : exec (SmPhase.step config) (.fresh initial) runner.trace = some phase
  state : phase.state = runner.currentState
  fits : ∀ co, (runner.pc co).Fits config phase
  turn : ∀ co other, (runner.pc co).ahead config runner.currentState = true →
    (runner.pc other).ahead config runner.currentState = true → co = other
  sole : ∀ co other, (runner.pc co).midway = true → (runner.pc other).midway = true → co = other
  settled : phase = .inside phase.state ∨ ∃ co, (runner.pc co).midway = true

variable {config : SmConfig} {initial : SmState} {runner next : Runner} {phase : SmPhase}
  {co : Nat}

theorem start_inTurn (started : start config = some runner) :
    InTurn config runner.currentState runner (.fresh runner.currentState) := by
  simp only [start, Option.map_eq_some_iff] at started
  obtain ⟨state, _, same⟩ := started
  subst runner
  have idle (co : Nat) (later : co ≠ 0) :
      Function.update (fun _ => Pc.done) 0 .begin co = .done := by
    simp [later]
  refine ⟨rfl, rfl, fun co => ?_, fun co other left right => ?_, fun co other left right => ?_,
    .inr ⟨0, rfl⟩⟩
  · by_cases first : co = 0
    · simp [first, Pc.Fits, SmPhase.state]
    · simp [idle co first, Pc.Fits]
  · by_cases first : co = 0
    · by_cases second : other = 0
      · rw [first, second]
      · simp [idle other second, Pc.ahead] at right
    · simp [idle co first, Pc.ahead] at left
  · by_cases first : co = 0
    · by_cases second : other = 0
      · rw [first, second]
      · simp [idle other second, Pc.midway] at right
    · simp [idle co first, Pc.midway] at left

theorem update_within (property later : Pc → Bool) {pcs : Nat → Pc} {pc : Pc}
    (sole : ∀ co other, property (pcs co) = true → property (pcs other) = true → co = other)
    (self : later pc = true → property (pcs co) = true)
    (others : ∀ other, other ≠ co → later (pcs other) = true → property (pcs other) = true)
    (left right : Nat) (leftHolds : later (Function.update pcs co pc left) = true)
    (rightHolds : later (Function.update pcs co pc right) = true) : left = right := by
  have before (place : Nat) (holds : later (Function.update pcs co pc place) = true) :
      property (pcs place) = true := by
    by_cases same : place = co
    · rw [same, Function.update_self] at holds
      rw [same]
      exact self holds
    · rw [Function.update_of_ne same] at holds
      exact others place same holds
  exact sole left right (before left leftHolds) (before right rightHolds)

theorem update_alone (property : Pc → Bool) {pcs : Nat → Pc} {pc : Pc}
    (others : ∀ other, other ≠ co → property (pcs other) = false) (left right : Nat)
    (leftHolds : property (Function.update pcs co pc left) = true)
    (rightHolds : property (Function.update pcs co pc right) = true) : left = right := by
  have self (place : Nat) (holds : property (Function.update pcs co pc place) = true) :
      place = co := by
    by_contra different
    rw [Function.update_of_ne different, others place different] at holds
    cases holds
  rw [self left leftHolds, self right rightHolds]

theorem InTurn.frame (inTurn : InTurn config initial runner phase)
    (places : next.pc = runner.pc) (current : next.currentState = runner.currentState)
    (trace : next.trace = runner.trace) : InTurn config initial next phase := by
  refine ⟨?_, ?_, ?_, ?_, ?_, ?_⟩
  · rw [trace]
    exact inTurn.legal
  · rw [current]
    exact inTurn.state
  · rw [places]
    exact inTurn.fits
  · rw [places, current]
    exact inTurn.turn
  · rw [places]
    exact inTurn.sole
  · rw [places]
    exact inTurn.settled

theorem InTurn.quiet (inTurn : InTurn config initial runner phase) {pc : Pc}
    (moves : next.pc = Function.update runner.pc co pc)
    (current : next.currentState = runner.currentState)
    (legal : exec (SmPhase.step config) (.fresh initial) next.trace = some phase)
    (fits : pc.Fits config phase)
    (ahead : pc.ahead config runner.currentState = true →
      (runner.pc co).ahead config runner.currentState = true)
    (midway : pc.midway = (runner.pc co).midway) : InTurn config initial next phase := by
  refine ⟨legal, by rw [current]; exact inTurn.state, fun place => ?_, ?_, ?_, ?_⟩
  · rw [moves]
    by_cases self : place = co
    · rw [self, Function.update_self]
      exact fits
    · rw [Function.update_of_ne self]
      exact inTurn.fits place
  · rw [moves, current]
    exact update_within _ _ inTurn.turn ahead (fun _ _ holds => holds)
  · rw [moves]
    exact update_within _ _ inTurn.sole (fun holds => midway ▸ holds) (fun _ _ holds => holds)
  · rcases inTurn.settled with inside | ⟨place, holds⟩
    · exact .inl inside
    · refine .inr ⟨place, ?_⟩
      rw [moves]
      by_cases self : place = co
      · rw [self, Function.update_self, midway, ← self]
        exact holds
      · rw [Function.update_of_ne self]
        exact holds

theorem InTurn.turns (inTurn : InTurn config initial runner phase) {pc : Pc} {later : SmPhase}
    (moves : next.pc = Function.update runner.pc co pc)
    (state : later.state = next.currentState)
    (legal : exec (SmPhase.step config) (.fresh initial) next.trace = some later)
    (fits : pc.Fits config later)
    (others : ∀ other, other ≠ co → (runner.pc other).Fits config later)
    (ahead : pc.ahead config next.currentState = true →
      (runner.pc co).ahead config runner.currentState = true)
    (othersAhead : ∀ other, other ≠ co →
      (runner.pc other).ahead config next.currentState = true →
      (runner.pc other).ahead config runner.currentState = true)
    (alone : ∀ other, other ≠ co → (runner.pc other).midway = false)
    (settled : later = .inside later.state ∨ pc.midway = true) :
    InTurn config initial next later := by
  refine ⟨legal, state, fun place => ?_, ?_, ?_, ?_⟩
  · rw [moves]
    by_cases self : place = co
    · rw [self, Function.update_self]
      exact fits
    · rw [Function.update_of_ne self]
      exact others place self
  · rw [moves]
    exact update_within _ _ inTurn.turn ahead othersAhead
  · rw [moves]
    exact update_alone Pc.midway alone
  · rcases settled with inside | midway
    · exact .inl inside
    · refine .inr ⟨co, ?_⟩
      rw [moves, Function.update_self]
      exact midway

theorem calling_fits {hook : Hook} (ran : hook.Ran config phase) :
    (calling hook).Fits config phase := by
  unfold calling
  split <;> exact ran

theorem calling_ahead (hook : Hook) (current : SmState) :
    (calling hook).ahead config current = hook.ahead config := by
  unfold calling
  split <;> rfl

theorem calling_midway (hook : Hook) : (calling hook).midway = (Pc.ret hook).midway := by
  unfold calling
  split
  · rfl
  · cases hook <;> rfl

theorem callLuaFunc_inTurn (scheduled : Scheduled runner)
    (inTurn : InTurn config initial runner phase)
    (current : runner.system.currentCo = some co) {hook : Hook}
    (place : runner.pc co = .call hook) {system : CoSystem Nat}
    (available : runner.system.mutex.holder = none ∨ runner.system.mutex.holder = some co) :
    ∃ later, InTurn config initial
      (callLuaFunc hook co { runner with system := system }) later := by
  have ready : hook.Ready config phase := by
    have fits := inTurn.fits co
    rw [place] at fits
    exact fits
  obtain ⟨later, follows, ran, state⟩ := ready.run
  have legal : exec (SmPhase.step config) (.fresh initial) (runner.trace ++ hook.traced) =
      some later := by
    rw [exec_append, inTurn.legal]
    exact follows
  have rest (other : Nat) (different : other ≠ co) :
      runner.pc other = .begin ∨ (∃ state next, runner.pc other = .call (.exit state next)) ∨
        ∀ phase, (runner.pc other).Fits config phase := by
    obtain ⟨broken, outside⟩ := scheduled.resting current available different
    exact Pc.resting_cases broken outside
  have callAhead (place' : (calling hook).ahead config runner.currentState = true) :
      (runner.pc co).ahead config runner.currentState = true := by
    rw [calling_ahead] at place'
    rw [place]
    exact place'
  have stays : later.state = runner.currentState := state.trans inTurn.state
  cases hook with
  | act acting =>
      have same : later = phase := by
        rw [show phase = _ from ready, show later = _ from ran]
      subst same
      refine ⟨_, inTurn.quiet rfl rfl legal (calling_fits ran) callAhead ?_⟩
      rw [calling_midway, place]
      rfl
  | check =>
      cases follows
      refine ⟨_, inTurn.quiet rfl rfl legal (calling_fits ran) callAhead ?_⟩
      rw [calling_midway, place]
      rfl
  | first entered | enter entered =>
      refine ⟨later, inTurn.turns rfl stays legal (calling_fits ran) (fun other different => ?_)
        callAhead (fun _ _ holds => holds) (fun other different => ?_) (.inl ?_)⟩
      · rcases rest other different with begins | ⟨left, replacing, exits⟩ | idle
        · have both := inTurn.sole other co (by rw [begins]; rfl) (by rw [place]; rfl)
          exact absurd both different
        · have fits := inTurn.fits other
          rw [exits] at fits
          have inside : phase = .inside left := fits.1
          have fresh : phase = .fresh entered := ready
          rw [fresh] at inside
          cases inside
        · exact idle later
      · by_contra midway
        have both := inTurn.sole other co (by simpa using midway) (by rw [place]; rfl)
        exact different both
      · rw [show later = _ from ran]
        rfl
  | exit left replacing =>
      have inside : phase = .inside left := ready.1
      refine ⟨later, inTurn.turns rfl stays legal (calling_fits ran) (fun other different => ?_)
        callAhead (fun _ _ holds => holds) (fun other _ => ?_) (.inr ?_)⟩
      · rcases rest other different with begins | ⟨_, _, exits⟩ | idle
        · have fits := inTurn.fits other
          rw [begins, inside] at fits
          cases fits
        · have both := inTurn.turn other co (by rw [exits]; rfl) (by rw [place]; rfl)
          exact absurd both different
        · exact idle later
      · have fits := inTurn.fits other
        rw [inside] at fits
        exact fits.not_midway
      · rw [calling_midway]
        rfl

/-- What a coroutine does behind the `unlock_sm` of a hook; behind an exit hook it
replaces the current state. -/
theorem afterHook_inTurn (scheduled : Scheduled runner)
    (inTurn : InTurn config initial runner phase)
    (current : runner.system.currentCo = some co) {hook : Hook}
    (place : runner.pc co = .ret hook) (system : CoSystem Nat) :
    ∃ later, InTurn config initial
      (afterHook config hook co { runner with system := system }) later := by
  have ran : hook.Ran config phase := by
    have fits := inTurn.fits co
    rw [place] at fits
    exact fits
  have state := inTurn.state
  cases hook with
  | first entered =>
      cases ran
      refine ⟨_, inTurn.quiet rfl rfl inTurn.legal rfl (fun holds => ?_) (by rw [place]; rfl)⟩
      rw [place]
      rw [← state] at holds
      exact holds
  | enter entered =>
      cases ran
      refine ⟨_, inTurn.quiet rfl rfl inTurn.legal (congrArg _ state) (fun holds => ?_)
        (by rw [place]; rfl)⟩
      rw [place]
      simp only [← state] at holds
      exact holds
  | act acting =>
      cases ran
      simp only [afterHook]
      cases found : config.nextState runner.nextId acting with
      | none =>
          exact ⟨_, inTurn.quiet rfl rfl inTurn.legal trivial (fun holds => by cases holds)
            (by rw [place]; rfl)⟩
      | some next =>
          have edge := SmConfig.edge_of_nextState found
          refine ⟨_, inTurn.quiet rfl rfl inTurn.legal ⟨congrArg _ state, ?_⟩ (fun _ => ?_)
            (by rw [place]; rfl)⟩
          · have same : acting = runner.currentState := state
            rw [← same]
            exact edge
          · rw [place]
            change (config.nextState 0 acting).isSome = true
            rw [config.nextState_isSome 0 runner.nextId, found]
            rfl
  | exit left replacing =>
      obtain ⟨exited, edge⟩ := ran
      have own : runner.system.mutex.holder = some co := by
        apply holder_of_depth scheduled.lockMatch.lock
        rw [scheduled.lockMatch.depth co, place]
        exact Nat.one_pos
      have legal : exec (SmPhase.step config) (.fresh initial)
          (runner.trace ++ [.assign replacing]) = some (.fresh replacing) := by
        rw [exec_append, inTurn.legal, exited]
        simp [exec, SmPhase.step, edge]
      refine ⟨.fresh replacing, inTurn.turns rfl rfl legal rfl (fun other different => ?_)
        (fun _ => by rw [place]; rfl) (fun other different holds => ?_)
        (fun other different => ?_) (.inr rfl)⟩
      · obtain ⟨broken, outside⟩ := scheduled.resting current (.inr own) different
        have fits := inTurn.fits other
        rcases Pc.resting_cases broken outside with begins | ⟨_, _, exits⟩ | idle
        · rw [begins, exited] at fits
          cases fits
        · rw [exits, exited] at fits
          cases fits.1
        · exact idle _
      · exact Pc.ahead_of_resting (scheduled.alone current different) holds
      · by_contra midway
        have both := inTurn.sole other co (by simpa using midway) (by rw [place]; rfl)
        exact different both
  | check =>
      exact ⟨_, inTurn.quiet rfl rfl inTurn.legal trivial (fun holds => by cases holds)
        (by rw [place]; rfl)⟩

theorem lookup_inTurn (scheduled : Scheduled runner)
    (inTurn : InTurn config initial runner phase)
    (current : runner.system.currentCo = some co) {event : String}
    (place : runner.pc co = .procEvent event) (noneAhead : NoneAhead config runner .advance) :
    InTurn config initial (runner.changeState co
      (config.getEventState runner.nextId runner.currentState event)) phase := by
  cases found : config.getEventState runner.nextId runner.currentState event with
  | none =>
      exact inTurn.quiet rfl rfl inTurn.legal trivial (fun holds => by cases holds)
        (by rw [place]; rfl)
  | some next =>
      have others := noneAhead rfl co current event place (by rw [found]; rfl)
      have inside : phase = .inside runner.currentState := by
        rw [← inTurn.state]
        rcases inTurn.settled with inside | ⟨other, midway⟩
        · exact inside
        · have different : other ≠ co := by
            rintro rfl
            rw [place] at midway
            cases midway
          have broken := scheduled.alone current different
          have clear := others other different
          rw [Pc.ahead_of_midway midway broken] at clear
          cases clear
      refine ⟨inTurn.legal, inTurn.state, fun other => ?_, ?_, ?_, .inl ?_⟩
      · by_cases self : other = co
        · have edge := SmConfig.edge_of_getEventState found
          rw [self, changeState]
          simp only [goTo_pc_self]
          exact ⟨inside, edge⟩
        · simp only [changeState, goTo_pc_of_ne runner _ self]
          exact inTurn.fits other
      · exact update_alone (Pc.ahead config runner.currentState) others
      · refine update_within _ _ inTurn.sole (fun midway => ?_) (fun _ _ midway => midway)
        cases midway
      · rw [inside]
        rfl

theorem advance_inTurn (scheduled : Scheduled runner)
    (inTurn : InTurn config initial runner phase)
    (current : runner.system.currentCo = some co) (noneAhead : NoneAhead config runner .advance)
    (taken : runner.advance config co = some next) :
    ∃ later, InTurn config initial next later := by
  have lockMatch := scheduled.lockMatch
  have fits := inTurn.fits co
  cases place : runner.pc co with
  | begin | register =>
      rw [place] at fits
      simp only [advance, place] at taken
      obtain ⟨label, system, stepped, outcome⟩ := acquire_cases lockMatch current taken
      rcases outcome with ⟨_, same⟩ | ⟨_, same⟩
      · subst next
        exact ⟨phase, inTurn.frame rfl rfl rfl⟩
      · subst next
        exact ⟨phase, inTurn.quiet rfl rfl inTurn.legal fits (fun _ => by rw [place]; rfl)
          (by rw [place]; rfl)⟩
  | registered =>
      rw [place] at fits
      simp only [advance, place] at taken
      obtain ⟨system, _, _, same⟩ := release_cases current taken
      subst next
      refine ⟨phase, inTurn.quiet rfl rfl inTurn.legal ?_ (fun _ => by rw [place]; rfl)
        (by rw [place]; rfl)⟩
      change phase = .fresh runner.currentState
      rw [← inTurn.state]
      exact fits
  | beginUnlock =>
      rw [place] at fits
      simp only [advance, place] at taken
      obtain ⟨system, _, _, same⟩ := release_cases current taken
      subst next
      refine ⟨phase, inTurn.quiet rfl rfl inTurn.legal ?_ (fun holds => by rw [place]; exact holds)
        (by rw [place]; rfl)⟩
      change phase = .inside runner.currentState
      rw [← inTurn.state]
      exact fits
  | procEvent event =>
      simp only [advance, place, Option.some.injEq] at taken
      subst next
      exact ⟨phase, lookup_inTurn scheduled inTurn current place noneAhead⟩
  | call hook =>
      simp only [advance, place] at taken
      obtain ⟨label, system, stepped, outcome⟩ := acquire_cases lockMatch current taken
      rcases outcome with ⟨_, same⟩ | ⟨enters, same⟩
      · subst next
        exact ⟨phase, inTurn.frame rfl rfl rfl⟩
      · subst next
        exact callLuaFunc_inTurn scheduled inTurn current place enters.available
  | ret hook =>
      simp only [advance, place] at taken
      obtain ⟨system, _, _, same⟩ := release_cases current taken
      subst next
      exact afterHook_inTurn scheduled inTurn current place system
  | timer =>
      simp only [advance, place, Option.some.injEq] at taken
      subst next
      exact ⟨phase, inTurn.quiet rfl rfl inTurn.legal trivial (fun holds => by cases holds)
        (by rw [place]; rfl)⟩
  | done =>
      simp only [advance, place] at taken
      rw [(schedule_eq_some.mp taken).2]
      exact ⟨phase, inTurn.frame rfl rfl rfl⟩
  | lua | timerLua =>
      simp only [advance, place] at taken
      cases taken

theorem stepCurrent_inTurn {label : RunnerLabel} (scheduled : Scheduled runner)
    (inTurn : InTurn config initial runner phase)
    (current : runner.system.currentCo = some co) (noneAhead : NoneAhead config runner label)
    (taken : runner.stepCurrent config co label = some next) :
    ∃ later, InTurn config initial next later := by
  rcases stepCurrent_cases taken with ⟨advances, advanced⟩ | ⟨hook, place, same⟩ | ⟨place, same⟩ |
    ⟨_, yielded⟩ | ⟨timers, same⟩
  · subst label
    exact advance_inTurn scheduled inTurn current noneAhead advanced
  · have fits := inTurn.fits co
    rw [place] at fits
    subst next
    refine ⟨phase, inTurn.quiet rfl rfl inTurn.legal fits (fun holds => ?_) ?_⟩
    · rw [place]
      exact holds
    · rw [place]
      cases hook <;> rfl
  · subst next
    exact ⟨phase, inTurn.quiet rfl rfl inTurn.legal trivial (fun holds => by cases holds)
      (by rw [place]; rfl)⟩
  · rw [(schedule_eq_some.mp yielded).2]
    exact ⟨phase, inTurn.frame rfl rfl rfl⟩
  · subst next
    exact ⟨phase, inTurn.frame rfl rfl rfl⟩

theorem spawn_inTurn {pc : Pc} (scheduled : Scheduled runner)
    (inTurn : InTurn config initial runner phase) (fits : pc.Fits config phase)
    (notAhead : pc.ahead config runner.currentState = false) (notMidway : pc.midway = false)
    (taken : runner.spawn co pc = some next) : InTurn config initial next phase := by
  simp only [spawn, Option.map_eq_some_iff] at taken
  obtain ⟨added, born, same⟩ := taken
  obtain ⟨stepped, frame⟩ := schedule_eq_some.mp born
  obtain ⟨_, unborn, _⟩ := addCo_untouched stepped
  have idle := (scheduled.lockMatch.born co unborn).1
  subst next
  rw [frame]
  refine inTurn.quiet rfl rfl inTurn.legal fits (fun holds => ?_) ?_
  · rw [notAhead] at holds
    cases holds
  · rw [notMidway, idle]
    rfl

theorem step_inTurn {label : RunnerLabel} (scheduled : Scheduled runner)
    (inTurn : InTurn config initial runner phase) (noneAhead : NoneAhead config runner label)
    (taken : step config runner label = some next) :
    ∃ later, InTurn config initial next later := by
  rcases step_cases taken with ⟨co, pc, newborn, spawned⟩ | ⟨co, resumed⟩ | ⟨co, woken⟩ |
    ⟨co, current, stepped⟩
  · exact ⟨phase, spawn_inTurn scheduled inTurn (by cases newborn <;> trivial)
      (by cases newborn <;> rfl) (by cases newborn <;> rfl) spawned⟩
  · rw [(schedule_eq_some.mp resumed).2]
    exact ⟨phase, inTurn.frame rfl rfl rfl⟩
  · rw [(schedule_eq_some.mp woken).2]
    exact ⟨phase, inTurn.frame rfl rfl rfl⟩
  · exact stepCurrent_inTurn scheduled inTurn current noneAhead stepped

/-- As long as no event with an edge is looked up while another coroutine still has a
replacement ahead, the hooks and assignments of a run are a run of the automaton. -/
theorem always_traceLegal (config : SmConfig) (runner : Runner) (labels : List RunnerLabel)
    (started : start config = some runner)
    (inOrder : Meets (step config) (NoneAhead config) runner labels) :
    Always (step config) (TraceLegal config runner.currentState) runner labels := by
  have preserved : ∀ state label next,
      (Scheduled state ∧ ∃ phase, InTurn config runner.currentState state phase) →
      NoneAhead config state label → step config state label = some next →
      (Scheduled next ∧ ∃ phase, InTurn config runner.currentState next phase) := by
    intro state label next holds noneAhead taken
    obtain ⟨scheduled, phase, inTurn⟩ := holds
    exact ⟨step_scheduled scheduled taken, step_inTurn scheduled inTurn noneAhead taken⟩
  have always := always_of_meets preserved
    ⟨start_scheduled started, _, start_inTurn started⟩ inOrder
  refine always.mono (fun state holds => ?_)
  obtain ⟨_, phase, inTurn⟩ := holds
  rw [TraceLegal, inTurn.legal, Option.map_some, inTurn.state]

def beginRuns : List RunnerLabel :=
  [.resumeCo 0, .advance, .advance, .advance, .advance, .luaReturn, .advance, .advance, .advance,
    .advance, .advance]

/-- Coroutine 1 replaces the initial state, with a sleep in the exit hook. -/
def eventRuns (during : List RunnerLabel) : List RunnerLabel :=
  [.pushSmEvent 1 "y_pushed", .resumeCo 1, .advance, .advance, .luaYield] ++ during ++
    [.wake 1, .resumeCo 1, .luaReturn, .advance, .advance, .advance, .advance, .luaReturn,
      .advance, .advance]

theorem always_traceLegal_oneEvent :
    ∃ runner, start .buttons = some runner ∧
      Always (step .buttons) (TraceLegal .buttons runner.currentState) runner
        (beginRuns ++ eventRuns []) := by
  refine ⟨_, rfl, always_traceLegal .buttons _ _ rfl ?_⟩
  repeat' first | exact trivial | apply Meets.cons rfl
  -- only the lookup of the event is left: coroutine 0 has ended, the others have not begun
  all_goals rintro ⟨⟩ co ⟨⟩ event ⟨⟩ _ other different
  rcases other with _ | _ | other
  · rfl
  · exact absurd rfl different
  · rfl

/-- A second event that arrives during the exit hook runs that hook again, for the state
that the first event has replaced by then. -/
theorem exit_of_replaced_state :
    ∃ runner final, start .buttons = some runner ∧
      exec (step .buttons) runner (beginRuns ++
        eventRuns [.pushSmEvent 2 "y_pushed", .resumeCo 2, .advance, .advance] ++
        [.resumeCo 2, .advance]) = some final ∧
      final.trace.getLast? = some (.exit runner.currentState) ∧
      final.currentState ≠ runner.currentState ∧
      ¬TraceLegal .buttons runner.currentState final :=
  ⟨_, _, rfl, rfl, by decide, by decide, by decide⟩

end Runner

end AutoDrop
