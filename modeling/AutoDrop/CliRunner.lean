import AutoDrop.CliClosed
import AutoDrop.RunnerLocks

/-!
A runner of a closed configuration. Every state object that it holds was created from the
configuration, so what `do_action` and `get_event_state` look up is there.
-/

namespace AutoDrop

open LabelledRun

def EventNode.read (event : EventNode) : Option (String × String) :=
  match event.trigger, event.next with
  | some trigger, some next => some (String.ofList trigger, String.ofList next)
  | _, _ => none

/-- The fields of a state as `create_sm_state` reads them; a missing one throws. -/
def StateNode.read (state : StateNode) : Option StateConfig :=
  match state.enter, state.exit, state.action, state.events.mapM EventNode.read with
  | some enter, some exit, some action, some events =>
      some ⟨String.ofList state.name, String.ofList enter, String.ofList exit,
        String.ofList action, String.ofList state.next, events⟩
  | _, _, _, _ => none

def CliConfig.toSmConfig (config : CliConfig) : Option SmConfig :=
  (config.states.mapM StateNode.read).map (SmConfig.mk (String.ofList config.initState))

structure SmConfig.Closed (config : SmConfig) : Prop where
  next : ∀ state ∈ config.states, state.next ≠ "" →
    ∃ target ∈ config.states, target.name = state.next
  event : ∀ state ∈ config.states, ∀ entry ∈ state.events,
    ∃ target ∈ config.states, target.name = entry.2

section Reading

variable {α β : Type*} {read : α → Option β} {inputs : List α} {outputs : List β}

theorem mapM_isSome (reads : ∀ input ∈ inputs, ∃ output, read input = some output) :
    ∃ outputs, inputs.mapM read = some outputs := by
  induction inputs with
  | nil => exact ⟨[], rfl⟩
  | cons input rest ih =>
      obtain ⟨output, first⟩ := reads input (by simp)
      obtain ⟨outputs, later⟩ := ih fun other member => reads other (List.mem_cons_of_mem _ member)
      exact ⟨output :: outputs, by simp [List.mapM_cons, first, later]⟩

theorem mapM_cons_eq_some {input : α} {rest : List α}
    (all : (input :: rest).mapM read = some outputs) :
    ∃ first later, read input = some first ∧ rest.mapM read = some later ∧
      outputs = first :: later := by
  simp only [List.mapM_cons, Option.bind_eq_bind, Option.bind_eq_some_iff, Option.pure_def,
    Option.some.injEq] at all
  obtain ⟨first, reads, later, remaining, same⟩ := all
  exact ⟨first, later, reads, remaining, same.symm⟩

theorem mem_mapM (all : inputs.mapM read = some outputs) {output : β} :
    output ∈ outputs ↔ ∃ input ∈ inputs, read input = some output := by
  induction inputs generalizing outputs with
  | nil =>
      simp only [List.mapM_nil, Option.pure_def, Option.some.injEq] at all
      simp [← all]
  | cons input rest ih =>
      obtain ⟨first, later, here, there, rfl⟩ := mapM_cons_eq_some all
      simp only [List.mem_cons, ih there, exists_eq_or_imp, here, Option.some.injEq]
      exact or_congr_left eq_comm

end Reading

namespace StateNode

variable {names : List Chars} {state : StateNode} {read : StateConfig}

theorem Closed.reads (closed : state.Closed names) : ∃ read, state.read = some read := by
  have events : ∃ events, state.events.mapM EventNode.read = some events := by
    refine mapM_isSome fun event member => ?_
    obtain ⟨trigger, first⟩ := Option.ne_none_iff_exists'.mp (closed.trigger event member)
    obtain ⟨target, _, second⟩ := closed.target event member
    exact ⟨(String.ofList trigger, String.ofList target), by
      simp only [EventNode.read, first, second]⟩
  obtain ⟨events, listed⟩ := events
  obtain ⟨enter, first⟩ : ∃ enter, state.enter = some enter :=
    Option.ne_none_iff_exists'.mp (closed.code .enter)
  obtain ⟨exit, second⟩ : ∃ exit, state.exit = some exit :=
    Option.ne_none_iff_exists'.mp (closed.code .exit)
  obtain ⟨action, third⟩ : ∃ action, state.action = some action :=
    Option.ne_none_iff_exists'.mp (closed.code .action)
  exact ⟨⟨String.ofList state.name, String.ofList enter, String.ofList exit,
    String.ofList action, String.ofList state.next, events⟩, by
      simp only [StateNode.read, first, second, third, listed]⟩

theorem read_fields (done : state.read = some read) :
    read.name = String.ofList state.name ∧ read.next = String.ofList state.next ∧
      state.events.mapM EventNode.read = some read.events := by
  simp only [StateNode.read] at done
  split at done
  · rename_i listed
    simp only [Option.some.injEq] at done
    subst read
    exact ⟨rfl, rfl, listed⟩
  · cases done

end StateNode

theorem CliConfig.Closed.toSmConfig {config : CliConfig} (closed : config.Closed) :
    ∃ sm, config.toSmConfig = some sm ∧ sm.Closed ∧
      sm.initState = String.ofList config.initState ∧
        (config.initState ≠ [] → ∃ state ∈ sm.states, state.name = sm.initState) := by
  obtain ⟨states, listed⟩ : ∃ states, config.states.mapM StateNode.read = some states :=
    mapM_isSome fun state member => (closed.state state member).reads
  -- a name of the configuration is the name of a state that was read
  have named (name : Chars) (member : name ∈ config.stateNames) :
      ∃ target ∈ states, target.name = String.ofList name := by
    obtain ⟨state, source, rfl⟩ := List.mem_map.mp member
    obtain ⟨read, done⟩ := (closed.state state source).reads
    exact ⟨read, (mem_mapM listed).mpr ⟨state, source, done⟩, (StateNode.read_fields done).1⟩
  refine ⟨_, by rw [CliConfig.toSmConfig, listed]; rfl, ⟨?_, ?_⟩, rfl, fun init => ?_⟩
  · intro read member next
    obtain ⟨state, member, done⟩ := (mem_mapM listed).mp member
    obtain ⟨_, same, _⟩ := StateNode.read_fields done
    rw [same] at next ⊢
    refine named state.next ((closed.state state member).next fun empty => next ?_)
    rw [empty, String.ofList_nil]
  · intro read member entry found
    obtain ⟨state, member, done⟩ := (mem_mapM listed).mp member
    obtain ⟨event, source, reads⟩ := (mem_mapM (StateNode.read_fields done).2.2).mp found
    obtain ⟨target, listed, same⟩ := (closed.state state member).target event source
    simp only [EventNode.read, same] at reads
    split at reads
    · rename_i trigger next _ again
      obtain rfl := Option.some.inj again
      obtain rfl := Option.some.inj reads
      exact named _ listed
    · cases reads
  · exact named _ (closed.init init)

namespace SmConfig

variable {config : SmConfig} {id : Nat} {name : String} {state : SmState}

theorem createSmState_isSome (found : ∃ target ∈ config.states, target.name = name) :
    (config.createSmState id name).isSome := by
  simpa [createSmState, List.find?_isSome] using found

theorem mem_of_createSmState (created : config.createSmState id name = some state) :
    state.config ∈ config.states := by
  simp only [createSmState, Option.map_eq_some_iff] at created
  obtain ⟨found, first, rfl⟩ := created
  exact List.mem_of_find?_eq_some first

theorem mem_of_nextState {source : SmState}
    (created : config.nextState id source = some state) : state.config ∈ config.states := by
  unfold nextState at created
  split at created
  · cases created
  · exact mem_of_createSmState created

theorem mem_of_getEventState {source : SmState} {event : String}
    (created : config.getEventState id source event = some state) :
    state.config ∈ config.states := by
  simp only [getEventState, Option.bind_eq_some_iff] at created
  obtain ⟨name, _, created⟩ := created
  exact mem_of_createSmState created

theorem Closed.nextState (closed : config.Closed) (listed : state.config ∈ config.states)
    (next : state.config.next ≠ "") : (config.nextState id state).isSome := by
  rw [SmConfig.nextState, if_neg next]
  exact createSmState_isSome (closed.next state.config listed next)

theorem Closed.getEventState (closed : config.Closed) (listed : state.config ∈ config.states)
    {event : String} (known : (state.config.eventState event).isSome) :
    (config.getEventState id state event).isSome := by
  obtain ⟨name, found⟩ := Option.isSome_iff_exists.mp known
  have looked := found
  simp only [StateConfig.eventState, Option.map_eq_some_iff] at looked
  obtain ⟨entry, first, rfl⟩ := looked
  rw [SmConfig.getEventState, found]
  exact createSmState_isSome (closed.event state.config listed entry
    (List.mem_reverse.mp (List.mem_of_find?_eq_some first)))

end SmConfig

def Hook.states : Hook → List SmState
  | .first state | .enter state | .act state => [state]
  | .exit state next => [state, next]
  | .check _ _ => []

def Pc.states : Pc → List SmState
  | .call hook | .lua hook | .ret hook => hook.states
  | _ => []

namespace Runner

/-- Every state object in use was created from the configuration. -/
structure Configured (config : SmConfig) (runner : Runner) : Prop where
  current : runner.currentState.config ∈ config.states
  hooks : ∀ co, ∀ state ∈ (runner.pc co).states, state.config ∈ config.states

variable {config : SmConfig} {runner next : Runner} {co : Nat}

theorem Configured.moved (configured : Configured config runner) {pc : Pc}
    (current : next.currentState.config ∈ config.states)
    (moves : next.pc = Function.update runner.pc co pc)
    (states : ∀ state ∈ pc.states, state.config ∈ config.states) : Configured config next := by
  refine ⟨current, fun other state member => ?_⟩
  rw [moves] at member
  by_cases same : other = co
  · subst other
    rw [Function.update_self] at member
    exact states state member
  · rw [Function.update_of_ne same] at member
    exact configured.hooks other state member

theorem Configured.frame (configured : Configured config runner)
    (current : next.currentState = runner.currentState) (pc : next.pc = runner.pc) :
    Configured config next :=
  ⟨current ▸ configured.current, pc ▸ configured.hooks⟩

theorem Configured.schedule (configured : Configured config runner) {label : CoLabel Nat}
    (taken : runner.schedule label = some next) : Configured config next := by
  rw [(schedule_eq_some.mp taken).2]
  exact configured.frame rfl rfl

theorem Configured.goTo (configured : Configured config runner) {pc : Pc}
    (states : ∀ state ∈ pc.states, state.config ∈ config.states) :
    Configured config (runner.goTo co pc) :=
  configured.moved configured.current rfl states

theorem Configured.changeState (configured : Configured config runner) {target : Option SmState}
    (created : ∀ state, target = some state → state.config ∈ config.states) :
    Configured config (runner.changeState co target) := by
  cases target with
  | none => exact configured.goTo fun _ member => by (cases member)
  | some state =>
      refine configured.moved configured.current rfl fun other member => ?_
      simp only [Pc.states, Hook.states, List.mem_cons, List.not_mem_nil, or_false] at member
      rcases member with rfl | rfl
      · exact configured.current
      · exact created _ rfl

theorem Configured.acquire (configured : Configured config runner) {locked : Runner → Runner}
    (taken : runner.acquire co locked = some next)
    (keeps : ∀ tried, tried.pc = runner.pc → Configured config tried →
      Configured config (locked tried)) : Configured config next := by
  simp only [Runner.acquire, Option.map_eq_some_iff] at taken
  obtain ⟨tried, scheduled, same⟩ := taken
  have before := configured.schedule scheduled
  have places : tried.pc = runner.pc := by rw [(schedule_eq_some.mp scheduled).2]
  split at same
  · exact same ▸ before
  · exact same ▸ keeps tried places before

theorem Configured.release (configured : Configured config runner) {unlocked : Runner → Runner}
    (taken : runner.release unlocked = some next)
    (keeps : ∀ left, left.pc = runner.pc → Configured config left →
      Configured config (unlocked left)) : Configured config next := by
  simp only [Runner.release, Option.map_eq_some_iff] at taken
  obtain ⟨left, scheduled, same⟩ := taken
  have places : left.pc = runner.pc := by rw [(schedule_eq_some.mp scheduled).2]
  exact same ▸ keeps left places (configured.schedule scheduled)

theorem calling_states (hook : Hook) : (calling hook).states = hook.states := by
  unfold calling
  split <;> rfl

theorem Configured.afterHook (configured : Configured config runner) {hook : Hook}
    (states : ∀ state ∈ hook.states, state.config ∈ config.states) :
    Configured config (afterHook config hook co runner) := by
  cases hook with
  | first state => exact configured.goTo fun _ member => by (cases member)
  | enter state =>
      refine configured.goTo fun other member => ?_
      obtain rfl := List.mem_singleton.mp member
      exact configured.current
  | act state =>
      exact configured.changeState fun target created => SmConfig.mem_of_nextState created
  | exit state target =>
      have listed := states target (by simp [Hook.states])
      refine configured.moved listed rfl fun other member => ?_
      obtain rfl := List.mem_singleton.mp member
      exact listed
  | check code realRun => exact configured.goTo fun _ member => by (cases member)

theorem Configured.advance (configured : Configured config runner)
    (taken : runner.advance config co = some next) : Configured config next := by
  cases place : runner.pc co with
  | begin | register =>
      simp only [Runner.advance, place] at taken
      exact configured.acquire taken fun tried _ before =>
        before.goTo fun _ member => by (cases member)
  | registered | beginUnlock =>
      simp only [Runner.advance, place] at taken
      refine configured.release taken fun left _ before => before.goTo fun other member => ?_
      obtain rfl := List.mem_singleton.mp member
      exact before.current
  | procEvent event =>
      simp only [Runner.advance, place, Option.some.injEq] at taken
      subst next
      exact configured.changeState fun target created => SmConfig.mem_of_getEventState created
  | call hook =>
      simp only [Runner.advance, place] at taken
      refine configured.acquire taken fun tried places before =>
        before.moved before.current rfl fun state member => ?_
      rw [calling_states] at member
      refine configured.hooks co state ?_
      rw [place]
      exact member
  | ret hook =>
      simp only [Runner.advance, place] at taken
      refine configured.release taken fun left places before =>
        before.afterHook fun state member => configured.hooks co state ?_
      rw [place]
      exact member
  | timer =>
      simp only [Runner.advance, place, Option.some.injEq] at taken
      subst next
      exact configured.goTo fun _ member => by (cases member)
  | done =>
      simp only [Runner.advance, place] at taken
      exact configured.schedule taken
  | lua | timerLua =>
      simp only [Runner.advance, place] at taken
      cases taken

theorem Configured.stepCurrent {label : RunnerLabel} (configured : Configured config runner)
    (taken : runner.stepCurrent config co label = some next) : Configured config next := by
  rcases stepCurrent_cases taken with ⟨_, advanced⟩ | ⟨hook, place, same⟩ | ⟨place, same⟩ |
    ⟨_, yielded⟩ | ⟨timers, same⟩
  · exact configured.advance advanced
  · subst next
    refine configured.goTo fun state member => configured.hooks co state ?_
    rw [place]
    exact member
  · subst next
    exact configured.goTo fun _ member => by (cases member)
  · exact configured.schedule yielded
  · subst next
    exact configured.frame rfl rfl

theorem Configured.step {label : RunnerLabel} (configured : Configured config runner)
    (taken : step config runner label = some next) : Configured config next := by
  rcases step_cases taken with ⟨co, pc, newborn, spawned⟩ | ⟨co, resumed⟩ | ⟨co, woken⟩ |
    ⟨co, current, stepped⟩
  · simp only [spawn, Option.map_eq_some_iff] at spawned
    obtain ⟨added, scheduled, same⟩ := spawned
    rw [← same]
    refine (configured.schedule scheduled).goTo fun state member => ?_
    cases newborn <;> cases member
  · exact configured.schedule resumed
  · exact configured.schedule woken
  · exact configured.stepCurrent stepped

theorem start_configured (started : start config = some runner) : Configured config runner := by
  simp only [start, Option.map_eq_some_iff] at started
  obtain ⟨state, created, same⟩ := started
  subst runner
  refine ⟨SmConfig.mem_of_createSmState created, fun co state member => ?_⟩
  by_cases first : co = 0
  · simp [first, Pc.states] at member
  · simp [first, Pc.states] at member

structure NeverNull (config : SmConfig) (runner : Runner) : Prop where
  next : ∀ co state, runner.pc co = .ret (.act state) → state.config.next ≠ "" →
    (config.nextState runner.nextId state).isSome
  event : ∀ co event, runner.pc co = .procEvent event →
    (runner.currentState.config.eventState event).isSome →
      (config.getEventState runner.nextId runner.currentState event).isSome

theorem Configured.neverNull (configured : Configured config runner) (closed : config.Closed) :
    NeverNull config runner where
  next co state place named := by
    refine closed.nextState (configured.hooks co state ?_) named
    rw [place]
    exact List.mem_singleton.mpr rfl
  event co event place known := closed.getEventState configured.current known

end Runner

/-- The commands keep the configuration closed, and a runner of it never gets a null state. -/
theorem CliConfig.built_closed (config : CliConfig) (built : config.Built) :
    config.Closed ∧ ∃ sm, config.toSmConfig = some sm ∧ (config.initState ≠ [] →
      ∃ first, Runner.start sm = some first ∧
        ∀ runner, Reachable (Runner.step sm) first runner → Runner.NeverNull sm runner) := by
  have closed := built.closed
  obtain ⟨sm, read, smClosed, _, init⟩ := closed.toSmConfig
  refine ⟨closed, sm, read, fun named => ?_⟩
  obtain ⟨state, created⟩ := Option.isSome_iff_exists.mp
    (SmConfig.createSmState_isSome (init named) : (sm.createSmState 0 sm.initState).isSome)
  have started : ∃ first, Runner.start sm = some first := by
    rw [Runner.start, created]
    exact ⟨_, rfl⟩
  obtain ⟨first, started⟩ := started
  refine ⟨first, started, fun runner reached => ?_⟩
  have configured : Runner.Configured sm runner :=
    invariant_of_reachable (Runner.start_configured started)
      (fun _ _ _ holds taken => holds.step taken) reached
  exact configured.neverNull smClosed

def CliConfig.twoStates : CliConfig :=
  [⟨.silent, .createState, ["a".toList]⟩, ⟨.silent, .createState, ["b".toList]⟩,
    ⟨.silent, .setNext, ["a".toList, "b".toList]⟩,
    ⟨.silent, .addEvent, ["b".toList, "e".toList, "a".toList]⟩,
    ⟨.silent, .setInit, ["a".toList]⟩].foldl call cleared

theorem CliConfig.built_closed_twoStates :
    twoStates.Closed ∧ ∃ sm, twoStates.toSmConfig = some sm ∧ (twoStates.initState ≠ [] →
      ∃ first, Runner.start sm = some first ∧
        ∀ runner, Reachable (Runner.step sm) first runner → Runner.NeverNull sm runner) :=
  built_closed twoStates ⟨_, .inr rfl⟩

end AutoDrop
