import AutoDrop.CliCommands

/-!
The commands keep the state machine closed: what a state or the initial state refers to
exists, and every field that the runner reads without a default is there.
-/

namespace AutoDrop

/-- A state whose references are among the names, with every field that the runner reads. -/
structure StateNode.Closed (names : List Chars) (state : StateNode) : Prop where
  triggers : (state.events.map EventNode.trigger).Nodup
  next : state.next ≠ [] → state.next ∈ names
  target : ∀ event ∈ state.events, ∃ name ∈ names, event.next = some name
  trigger : ∀ event ∈ state.events, event.trigger ≠ none
  code : ∀ type, state.code type ≠ none

structure CliConfig.Closed (config : CliConfig) : Prop where
  names : config.stateNames.Nodup
  state : ∀ state ∈ config.states, state.Closed config.stateNames
  init : config.initState ≠ [] → config.initState ∈ config.stateNames

namespace StateNode

variable {names more : List Chars} {state : StateNode}

theorem Closed.mono (closed : state.Closed names) (keeps : ∀ name ∈ names, name ∈ more) :
    state.Closed more where
  triggers := closed.triggers
  next named := keeps _ (closed.next named)
  target event member := by
    obtain ⟨name, listed, same⟩ := closed.target event member
    exact ⟨name, keeps name listed, same⟩
  trigger := closed.trigger
  code := closed.code

theorem makeNewState_closed (name : Chars) : (makeNewState name).Closed names where
  triggers := List.nodup_nil
  next named := absurd rfl named
  target event member := by cases member
  trigger event member := by cases member
  code type := by cases type <;> simp [makeNewState, code]

theorem Closed.setNext (closed : state.Closed names) {target : Chars} (listed : target ∈ names) :
    StateNode.Closed names { state with next := target } :=
  ⟨closed.triggers, fun _ => listed, closed.target, closed.trigger, closed.code⟩

theorem not_mem_of_hasEvent {trigger : Chars} (absent : state.hasEvent trigger = false) :
    some trigger ∉ state.events.map EventNode.trigger := by
  intro member
  obtain ⟨event, member, same⟩ := List.mem_map.mp member
  have present : state.hasEvent trigger = true :=
    List.any_eq_true.mpr ⟨event, member, by simp [same]⟩
  simp [absent] at present

theorem Closed.addEvent (closed : state.Closed names) {trigger target : Chars}
    (absent : state.hasEvent trigger = false) (listed : target ∈ names) :
    StateNode.Closed names
      { state with events := state.events ++ [⟨some trigger, some target⟩] } where
  triggers := by
    have fresh := not_mem_of_hasEvent absent
    rw [List.map_append, List.nodup_append]
    refine ⟨closed.triggers, List.nodup_singleton _, fun first member other single => ?_⟩
    rintro rfl
    obtain rfl := List.mem_singleton.mp single
    exact fresh member
  next := closed.next
  target event member := by
    rcases List.mem_append.mp member with member | member
    · exact closed.target event member
    · exact ⟨target, listed, by rw [List.mem_singleton.mp member]⟩
  trigger event member := by
    rcases List.mem_append.mp member with member | member
    · exact closed.trigger event member
    · rw [List.mem_singleton.mp member]
      exact Option.some_ne_none _
  code := closed.code

theorem Closed.setCode (closed : state.Closed names) (code : Chars) (kind : ActionType) :
    (state.setCode code kind).Closed names := by
  have codes (type : ActionType) : (state.setCode code kind).code type ≠ none := by
    have before := closed.code type
    cases kind <;> cases type <;> simp_all [StateNode.setCode, StateNode.code]
  cases kind <;> exact ⟨closed.triggers, closed.next, closed.target, closed.trigger, codes⟩

end StateNode

namespace CliConfig

variable {config : CliConfig} {env : CliEnv}

theorem cleared_closed : cleared.Closed :=
  ⟨List.nodup_nil, fun _ member => by (cases member), fun named => absurd rfl named⟩

theorem sample_closed : sample.Closed where
  names := List.nodup_singleton _
  state state member := by
    obtain rfl := List.mem_singleton.mp member
    exact StateNode.makeNewState_closed _
  init _ := List.mem_singleton.mpr rfl

theorem Closed.edit (closed : config.Closed) {name : Chars} {edit : StateNode → StateNode}
    (keeps : ∀ state, (edit state).name = state.name)
    (stays : ∀ state, config.getState name = some state →
      state.Closed config.stateNames → (edit state).Closed config.stateNames) :
    Closed { config with states := editState name edit config.states } := by
  have names : CliConfig.stateNames { config with
      states := editState name edit config.states } = config.stateNames := editState_names keeps
  refine ⟨names ▸ closed.names, fun state member => ?_, ?_⟩
  · rw [names]
    rcases mem_editState member with listed | ⟨found, first, rfl⟩
    · exact closed.state state listed
    · exact stays found first (closed.state found (List.mem_of_find?_eq_some first))
  · rw [names]
    exact closed.init

theorem Closed.createState (closed : config.Closed) (name : Chars)
    (fresh : name ∉ config.stateNames) :
    Closed { config with states := config.states ++ [makeNewState name] } := by
  have names : CliConfig.stateNames { config with
      states := config.states ++ [makeNewState name] } = config.stateNames ++ [name] := by
    simp [stateNames, makeNewState]
  have more : ∀ listed ∈ config.stateNames, listed ∈ config.stateNames ++ [name] :=
    fun _ member => List.mem_append_left _ member
  refine ⟨?_, fun state member => ?_, fun named => ?_⟩
  · rw [names, List.nodup_append]
    refine ⟨closed.names, List.nodup_singleton _, fun first member other single => ?_⟩
    rintro rfl
    obtain rfl := List.mem_singleton.mp single
    exact fresh member
  · rw [names]
    rcases List.mem_append.mp member with member | member
    · exact (closed.state state member).mono more
    · rw [List.mem_singleton.mp member]
      exact StateNode.makeNewState_closed name
  · rw [names]
    exact more _ (closed.init named)

theorem Effect.closed {next : CliConfig} {command : StateCommand} {params : List Chars}
    (effect : Effect config command params next) (closed : config.Closed) : next.Closed := by
  cases effect with
  | refused => exact closed
  | createState fresh => exact closed.createState _ fresh
  | setCode _ name code kind =>
      exact closed.edit (fun state => setCode_name state kind)
        fun state _ stays => stays.setCode code kind
  | setNext listed => exact closed.edit (fun _ => rfl) fun state _ stays => stays.setNext listed
  | addEvent absent listed =>
      exact closed.edit (fun _ => rfl) fun state found stays =>
        stays.addEvent (absent state found) listed
  | setInit listed => exact ⟨closed.names, closed.state, fun _ => listed⟩
  | clear =>
      exact ⟨List.nodup_nil, fun _ member => by (cases member), fun named => absurd rfl named⟩

theorem Closed.step (closed : config.Closed) (command : StateCommand) (params : List Chars) :
    (config.after (command.handler env config params)).Closed :=
  (handler_effect config env command params).closed closed

structure Call where
  env : CliEnv
  command : StateCommand
  params : List Chars

def call (config : CliConfig) (call : Call) : CliConfig :=
  config.after (call.command.handler call.env config call.params)

/-- A configuration that commands on the state machine can produce. -/
def Built (config : CliConfig) : Prop :=
  ∃ calls : List Call, config = calls.foldl call sample ∨ config = calls.foldl call cleared

theorem Closed.calls (closed : config.Closed) (calls : List Call) :
    (calls.foldl call config).Closed := by
  induction calls generalizing config with
  | nil => exact closed
  | cons first rest ih => exact ih (closed.step first.command first.params)

theorem Built.closed (built : config.Built) : config.Closed := by
  obtain ⟨calls, rfl | rfl⟩ := built
  · exact sample_closed.calls calls
  · exact cleared_closed.calls calls

end CliConfig

end AutoDrop
