import AutoDrop.CliConfig
import Mathlib.Data.List.Nodup

/-!
What a command that writes the configuration has found in it and what it changes.
-/

namespace AutoDrop

section EditState

variable {name other : Chars} {edit : StateNode → StateNode} {states : List StateNode}

theorem editState_names (keeps : ∀ state, (edit state).name = state.name) :
    (editState name edit states).map StateNode.name = states.map StateNode.name := by
  induction states with
  | nil => rfl
  | cons state rest ih =>
      rw [editState]
      split
      · simp [keeps]
      · simp [ih]

theorem find_editState (keeps : ∀ state, (edit state).name = state.name) :
    (editState name edit states).find? (fun state => state.name = other) =
      if other = name then (states.find? fun state => state.name = name).map edit
      else states.find? fun state => state.name = other := by
  induction states with
  | nil => simp [editState]
  | cons state rest ih =>
      rw [editState]
      by_cases found : state.name = name
      · by_cases same : other = name
        · simp [found, same, keeps]
        · simp [found, same, keeps, Ne.symm same]
      · rw [if_neg found, List.find?_cons, ih]
        by_cases same : other = name
        · subst other
          simp [found]
        · simp [same, List.find?_cons]

theorem mem_editState {state : StateNode} (member : state ∈ editState name edit states) :
    state ∈ states ∨ ∃ found, states.find? (fun state => state.name = name) = some found ∧
      state = edit found := by
  induction states with
  | nil => cases member
  | cons first rest ih =>
      rw [editState] at member
      by_cases named : first.name = name
      · rw [if_pos named] at member
        rcases List.mem_cons.mp member with rfl | member
        · exact .inr ⟨first, by simp [named], rfl⟩
        · exact .inl (List.mem_cons_of_mem _ member)
      · rw [if_neg named] at member
        rcases List.mem_cons.mp member with rfl | member
        · exact .inl (by simp)
        · rcases ih member with listed | ⟨found, first, same⟩
          · exact .inl (List.mem_cons_of_mem _ listed)
          · exact .inr ⟨found, by simp [named, first], same⟩

theorem editState_of_absent (absent : name ∉ states.map StateNode.name) :
    editState name edit states = states := by
  induction states with
  | nil => rfl
  | cons state rest ih =>
      simp only [List.map_cons, List.mem_cons, not_or] at absent
      rw [editState, if_neg (Ne.symm absent.1), ih absent.2]

theorem isSome_find_name : (states.find? fun state => state.name = name).isSome ↔
    name ∈ states.map StateNode.name := by
  simp [List.find?_isSome]

end EditState

inductive StateCommand
  | createState
  | inputAction
  | editAction
  | setNext
  | addEvent
  | setInit
  | clear
deriving DecidableEq, Repr

def StateCommand.handler (env : CliEnv) : StateCommand → CliHandler
  | createState => CliConfig.createState
  | inputAction => CliConfig.inputAction env
  | editAction => CliConfig.editAction env
  | setNext => CliConfig.setNext
  | addEvent => CliConfig.addEvent
  | setInit => CliConfig.setInit
  | clear => fun config _ => .ok { config with initState := [], states := [] }

/-- The kind of action that a command may write, if the text is one and the code is Lua. -/
def acceptsCode (env : CliEnv) (type code : Chars) : Option ActionType :=
  if env.checkLuaCode code = [] then ActionType.all.find? fun kind => kind.word = type else none

namespace CliConfig

variable {config : CliConfig} {env : CliEnv} {params others : List Chars}
  {name target trigger type code : Chars}

def stateNames (config : CliConfig) : List Chars := config.states.map StateNode.name

theorem getState_isSome : (config.getState name).isSome ↔ name ∈ config.stateNames :=
  isSome_find_name

theorem mem_stateNames {state : StateNode} (found : config.getState name = some state) :
    name ∈ config.stateNames :=
  getState_isSome.mp (Option.isSome_iff_exists.mpr ⟨state, found⟩)

theorem getState_eq_none (absent : name ∉ config.stateNames) : config.getState name = none := by
  rw [← Option.not_isSome_iff_eq_none, getState_isSome]
  exact absent

theorem after_addDevice (driver args : Chars) :
    config.after (config.addDevice env (driver :: name :: args :: others)) =
      if driver ∈ env.allDriver ∧ name ∉ config.devices.map DeviceNode.name then
        { config with devices := config.devices ++ [⟨name, driver, args⟩] } else config := by
  have any : (config.devices.any fun device => device.name = name) =
      decide (name ∈ config.devices.map DeviceNode.name) := by
    rw [Bool.eq_iff_iff]
    simp
  simp only [addDevice, any, decide_eq_true_eq]
  by_cases installed : driver ∈ env.allDriver
  · by_cases named : name ∈ config.devices.map DeviceNode.name
    · rw [if_neg (by simpa using installed), if_pos named, if_neg (by simp [named])]
      rfl
    · rw [if_neg (by simpa using installed), if_neg named, if_pos ⟨installed, named⟩]
      rfl
  · rw [if_pos installed, if_neg (by simp [installed])]
    rfl

theorem after_createState : config.after (config.createState (name :: others)) =
    if name ∈ config.stateNames then config
    else { config with states := config.states ++ [makeNewState name] } := by
  have any : (config.states.any fun state => state.name = name) =
      decide (name ∈ config.stateNames) := by
    rw [Bool.eq_iff_iff]
    simp [stateNames]
  simp only [createState, any, decide_eq_true_eq]
  split <;> rfl

theorem after_setNext : config.after (config.setNext (name :: target :: others)) =
    if name ∈ config.stateNames ∧ target ∈ config.stateNames then
      { config with
        states := editState name (fun state => { state with next := target }) config.states }
    else config := by
  simp only [setNext, ← getState_isSome]
  cases config.getState name <;> cases config.getState target <;> rfl

theorem after_setInit : config.after (config.setInit (name :: others)) =
    if name ∈ config.stateNames then { config with initState := name } else config := by
  simp only [setInit, ← getState_isSome]
  cases config.getState name <;> rfl

theorem after_addEvent : config.after (config.addEvent (name :: trigger :: target :: others)) =
    if (config.getState name).any (fun state => !state.hasEvent trigger) ∧
        target ∈ config.stateNames then
      { config with
        states := editState name (fun state => { state with
          events := state.events ++ [⟨some trigger, some target⟩] }) config.states }
    else config := by
  simp only [addEvent, ← getState_isSome]
  cases config.getState name with
  | none => cases config.getState target <;> rfl
  | some state =>
      cases config.getState target with
      | none => simp [after]
      | some _ => cases present : state.hasEvent trigger <;> simp [present, after]

theorem after_changeStateAction : config.after (config.changeStateAction env name type code) =
    match acceptsCode env type code with
    | none => config
    | some kind =>
        { config with
          states := editState name (fun state => state.setCode code kind) config.states } := by
  cases found : config.getState name with
  | none =>
      have absent : name ∉ config.states.map StateNode.name := by
        rw [← isSome_find_name]
        simpa [getState] using found
      simp only [changeStateAction, found, after]
      cases acceptsCode env type code with
      | none => rfl
      | some kind => simp only [editState_of_absent absent]
  | some state =>
      simp only [changeStateAction, found, acceptsCode]
      by_cases lua : env.checkLuaCode code = []
      · cases ActionType.all.find? fun kind => kind.word = type <;> simp [lua, after]
      · cases ActionType.all.find? fun kind => kind.word = type <;> simp [lua, after]

theorem after_inputAction :
    config.after (config.inputAction env (name :: type :: code :: others)) =
      match acceptsCode env type (restoreNewlines code) with
      | none => config
      | some kind => { config with
          states := editState name
            (fun state => state.setCode (restoreNewlines code) kind) config.states } :=
  after_changeStateAction

theorem setCode_name (state : StateNode) (kind : ActionType) :
    (state.setCode code kind).name = state.name := by
  cases kind <;> rfl

/-- What a command on the state machine makes of the configuration. -/
inductive Effect (config : CliConfig) : StateCommand → List Chars → CliConfig → Prop
  | refused (command : StateCommand) (params : List Chars) : Effect config command params config
  | createState {name : Chars} {others : List Chars} (fresh : name ∉ config.stateNames) :
      Effect config .createState (name :: others)
        { config with states := config.states ++ [makeNewState name] }
  | setCode {command : StateCommand} {params : List Chars}
      (writes : command = .inputAction ∨ command = .editAction) (name code : Chars)
      (kind : ActionType) :
      Effect config command params { config with
        states := editState name (fun state => state.setCode code kind) config.states }
  | setNext {name target : Chars} {others : List Chars} (listed : target ∈ config.stateNames) :
      Effect config .setNext (name :: target :: others) { config with
        states := editState name (fun state => { state with next := target }) config.states }
  | addEvent {name trigger target : Chars} {others : List Chars}
      (absent : ∀ state, config.getState name = some state → state.hasEvent trigger = false)
      (listed : target ∈ config.stateNames) :
      Effect config .addEvent (name :: trigger :: target :: others) { config with
        states := editState name (fun state => { state with
          events := state.events ++ [⟨some trigger, some target⟩] }) config.states }
  | setInit {name : Chars} {others : List Chars} (listed : name ∈ config.stateNames) :
      Effect config .setInit (name :: others) { config with initState := name }
  | clear (params : List Chars) :
      Effect config .clear params { config with initState := [], states := [] }

theorem changeStateAction_effect {command : StateCommand}
    (writes : command = .inputAction ∨ command = .editAction) (name type code : Chars) :
    Effect config command params (config.after (config.changeStateAction env name type code)) := by
  rw [after_changeStateAction]
  cases acceptsCode env type code with
  | none => exact .refused command params
  | some kind => exact .setCode writes name code kind

theorem handler_effect (config : CliConfig) (env : CliEnv) (command : StateCommand)
    (params : List Chars) :
    Effect config command params (config.after (command.handler env config params)) := by
  cases command with
  | createState =>
      rcases params with _ | ⟨name, others⟩
      · exact .refused _ _
      · simp only [StateCommand.handler, after_createState]
        split
        · exact .refused _ _
        · rename_i fresh
          exact .createState fresh
  | inputAction =>
      rcases params with _ | ⟨name, _ | ⟨type, _ | ⟨code, others⟩⟩⟩
      · exact .refused _ _
      · exact .refused _ _
      · exact .refused _ _
      · exact changeStateAction_effect (.inl rfl) name type (restoreNewlines code)
  | editAction =>
      rcases params with _ | ⟨name, _ | ⟨type, others⟩⟩
      · exact .refused _ _
      · exact .refused _ _
      · exact changeStateAction_effect (.inr rfl) name type _
  | setNext =>
      rcases params with _ | ⟨name, _ | ⟨target, others⟩⟩
      · exact .refused _ _
      · exact .refused _ _
      · simp only [StateCommand.handler, after_setNext]
        split
        · rename_i accepted
          exact .setNext accepted.2
        · exact .refused _ _
  | addEvent =>
      rcases params with _ | ⟨name, _ | ⟨trigger, _ | ⟨target, others⟩⟩⟩
      · exact .refused _ _
      · exact .refused _ _
      · exact .refused _ _
      · simp only [StateCommand.handler, after_addEvent]
        split
        · rename_i accepted
          refine .addEvent (fun state found => ?_) accepted.2
          simpa [found] using accepted.1
        · exact .refused _ _
  | setInit =>
      rcases params with _ | ⟨name, others⟩
      · exact .refused _ _
      · simp only [StateCommand.handler, after_setInit]
        split
        · rename_i listed
          exact .setInit listed
        · exact .refused _ _
  | clear => exact .clear params

theorem Effect.edits {next : CliConfig} {command : StateCommand}
    (effect : Effect config command params next)
    (edits : command = .inputAction ∨ command = .setNext ∨ command = .addEvent) :
    next = config ∨ ∃ owner edit, (∀ state : StateNode, (edit state).name = state.name) ∧
      next = { config with states := editState owner edit config.states } := by
  cases effect with
  | refused => exact .inl rfl
  | setCode _ name code kind => exact .inr ⟨name, _, fun state => setCode_name state kind, rfl⟩
  | setNext | addEvent =>
      refine .inr ⟨_, _, ?_, rfl⟩
      exact fun _ => rfl
  | createState | setInit | clear => simp at edits

theorem Effect.frame {next : CliConfig} {command : StateCommand}
    (effect : Effect config command params next) : next.devices = config.devices ∧
      next.redis = config.redis ∧ next.logConfig = config.logConfig := by
  cases effect <;> exact ⟨rfl, rfl, rfl⟩

end CliConfig

end AutoDrop
