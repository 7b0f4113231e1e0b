import AutoDrop.CliClosed
import AutoDrop.CliImport
import AutoDrop.FoldRules

/-!
What a printed line does to its part of the configuration: it adds an entry under a new
name, or it overwrites a value. The state machine is looked at state by state.
-/

namespace AutoDrop

open FoldRules SplitText

def deviceOf (env : CliEnv) : List Chars → Option DeviceNode
  | driver :: name :: args :: _ =>
      if driver ∈ env.allDriver then some ⟨name, driver, args⟩ else none
  | _ => none

def redisOf : List Chars → Option RedisNode
  | host :: port :: password :: _ => (stoi port).map fun number => ⟨host, number, password⟩
  | _ => none

def logOf : List Chars → Option LogOutputConfig
  | logModule :: logLevel :: _ => some ⟨logLevel, logModule⟩
  | _ => none

namespace StateCommand

def nextFor (names : List Chars) (name : Chars) : StateCommand → List Chars → Option Chars
  | setNext, owner :: target :: _ =>
      if owner = name ∧ target ∈ names then some target else none
  | _, _ => none

def eventFor (names : List Chars) (name : Chars) : StateCommand → List Chars → Option EventNode
  | addEvent, owner :: trigger :: target :: _ =>
      if owner = name ∧ target ∈ names then some ⟨some trigger, some target⟩ else none
  | _, _ => none

def codeFor (env : CliEnv) (name : Chars) (type : ActionType) :
    StateCommand → List Chars → Option Chars
  | inputAction, owner :: word :: code :: _ =>
      if owner = name ∧ acceptsCode env word (restoreNewlines code) = some type then
        some (restoreNewlines code)
      else none
  | _, _ => none

def nameFor : StateCommand → List Chars → Option Chars
  | createState, name :: _ => some name
  | _, _ => none

end StateCommand

def EventNode.key (event : EventNode) : Chars := event.trigger.getD []

/-- What a command does to one state of the configuration. -/
def CliConfig.Call.onNode (call : CliConfig.Call) (names : List Chars) (state : StateNode) :
    StateNode where
  name := state.name
  enter := ((call.command.codeFor call.env state.name .enter call.params).map some).getD state.enter
  exit := ((call.command.codeFor call.env state.name .exit call.params).map some).getD state.exit
  action :=
    ((call.command.codeFor call.env state.name .action call.params).map some).getD state.action
  next := (call.command.nextFor names state.name call.params).getD state.next
  events := addFresh EventNode.key state.events
    (call.command.eventFor names state.name call.params)

namespace CliConfig

variable {config : CliConfig} {env : CliEnv} {params : List Chars} {name : Chars}

theorem after_addDevice_params : config.after (config.addDevice env params) =
    { config with
      devices := addFresh DeviceNode.name config.devices (deviceOf env params) } := by
  match params with
  | driver :: name :: args :: others =>
      rw [after_addDevice]
      by_cases installed : driver ∈ env.allDriver
      · by_cases known : name ∈ config.devices.map DeviceNode.name
        · simp only [deviceOf, installed, known, addFresh, if_true, not_true_eq_false, and_false,
            if_false]
        · simp only [deviceOf, installed, known, addFresh, if_true, not_false_eq_true, and_true,
            if_false]
      · simp only [deviceOf, installed, addFresh, false_and, if_false]
  | [] | [_] | [_, _] => rfl

theorem after_redisParams_params : config.after (config.redisParams params) =
    { config with redis := (redisOf params).getD config.redis } := by
  match params with
  | host :: port :: password :: others =>
      simp only [redisParams, redisOf]
      cases stoi port <;> rfl
  | [] | [_] | [_, _] => rfl

theorem after_enableLog_params : config.after (config.enableLog params) =
    { config with logConfig := addFresh id config.logConfig (logOf params) } := by
  match params with
  | logModule :: logLevel :: others =>
      simp only [enableLog, logOf, addFresh, List.map_id_fun, id_eq]
      split <;> rfl
  | [] | [_] => rfl

theorem call_effect (config : CliConfig) (one : Call) :
    Effect config one.command one.params (config.call one) :=
  handler_effect config one.env one.command one.params

theorem getState_name {state : StateNode} (found : config.getState name = some state) :
    state.name = name := by
  simpa using List.find?_some found

theorem map_getState_congr {first second : StateNode → StateNode}
    (same : ∀ state, config.getState name = some state → first state = second state) :
    (config.getState name).map first = (config.getState name).map second :=
  Option.map_congr fun state found => same state found

theorem getState_editState {owner : Chars} {edit : StateNode → StateNode}
    (keeps : ∀ state, (edit state).name = state.name) :
    getState { config with states := editState owner edit config.states } name =
      (config.getState name).map fun state => if owner = name then edit state else state := by
  simp only [getState, find_editState keeps]
  by_cases same : name = owner
  · simp [same]
  · simp [same, Ne.symm same]

theorem onNode_setNext (names : List Chars) (state : StateNode) :
    Call.onNode ⟨env, .setNext, params⟩ names state =
      { state with
        next := (StateCommand.nextFor names state.name .setNext params).getD state.next } := rfl

theorem onNode_addEvent (names : List Chars) (state : StateNode) :
    Call.onNode ⟨env, .addEvent, params⟩ names state =
      { state with
        events := addFresh EventNode.key state.events
          (StateCommand.eventFor names state.name .addEvent params) } := rfl

theorem getState_setNext : (config.call ⟨env, .setNext, params⟩).getState name =
    (config.getState name).map (Call.onNode ⟨env, .setNext, params⟩ config.stateNames) := by
  match params with
  | [] | [_] => exact Option.map_id'.symm
  | owner :: target :: others =>
      simp only [call, StateCommand.handler, after_setNext]
      split
      · rename_i accepted
        refine (getState_editState ?_).trans (map_getState_congr fun state found => ?_)
        · exact fun _ => rfl
        obtain rfl := getState_name found
        rw [onNode_setNext]
        simp only [StateCommand.nextFor, accepted.2, and_true]
        split <;> rfl
      · rename_i rejected
        refine Option.map_id'.symm.trans (map_getState_congr fun state found => ?_)
        have away : ¬(owner = name ∧ target ∈ config.stateNames) := by
          rintro ⟨rfl, listed⟩
          exact rejected ⟨mem_stateNames found, listed⟩
        obtain rfl := getState_name found
        rw [onNode_setNext]
        simp only [StateCommand.nextFor, away, if_false]
        rfl

theorem hasEvent_eq (state : StateNode) (trigger : Chars) :
    state.hasEvent trigger = decide (trigger ∈ state.events.map EventNode.key) := by
  rw [Bool.eq_iff_iff]
  simp [StateNode.hasEvent, EventNode.key]

theorem getState_addEvent : (config.call ⟨env, .addEvent, params⟩).getState name =
    (config.getState name).map (Call.onNode ⟨env, .addEvent, params⟩ config.stateNames) := by
  match params with
  | [] | [_] | [_, _] => exact Option.map_id'.symm
  | owner :: trigger :: target :: others =>
      simp only [call, StateCommand.handler, after_addEvent]
      split
      · rename_i accepted
        refine (getState_editState ?_).trans (map_getState_congr fun state found => ?_)
        · exact fun _ => rfl
        obtain rfl := getState_name found
        rw [onNode_addEvent]
        simp only [StateCommand.eventFor, accepted.2, and_true]
        by_cases own : owner = state.name
        · have fresh : trigger ∉ state.events.map EventNode.key := by
            have absent := accepted.1
            simpa [own, found, hasEvent_eq] using absent
          rw [if_pos own, if_pos own, addFresh, if_neg]
          exact fresh
        · rw [if_neg own, if_neg own]
          rfl
      · rename_i rejected
        refine Option.map_id'.symm.trans (map_getState_congr fun state found => ?_)
        obtain rfl := getState_name found
        rw [onNode_addEvent]
        simp only [StateCommand.eventFor]
        split
        · rename_i accepted
          obtain ⟨rfl, listed⟩ := accepted
          have known : trigger ∈ state.events.map EventNode.key := by
            by_contra fresh
            refine rejected ⟨?_, listed⟩
            simpa [found, hasEvent_eq] using fresh
          rw [addFresh, if_pos]
          exact known
        · rfl

theorem setCode_eq (state : StateNode) (code : Chars) (kind : ActionType) :
    state.setCode code kind = { state with
      enter := if kind = .enter then some code else state.enter
      exit := if kind = .exit then some code else state.exit
      action := if kind = .action then some code else state.action } := by
  cases kind <;> rfl

theorem getState_inputAction : (config.call ⟨env, .inputAction, params⟩).getState name =
    (config.getState name).map (Call.onNode ⟨env, .inputAction, params⟩ config.stateNames) := by
  match params with
  | [] | [_] | [_, _] => exact Option.map_id'.symm
  | owner :: word :: code :: others =>
      simp only [call, StateCommand.handler, after_inputAction]
      cases accepts : acceptsCode env word (restoreNewlines code) with
      | none =>
          refine Option.map_id'.symm.trans (map_getState_congr fun state _ => ?_)
          simp [Call.onNode, StateCommand.codeFor, StateCommand.nextFor, StateCommand.eventFor,
            accepts, addFresh]
      | some kind =>
          refine (getState_editState fun state => setCode_name state kind).trans
            (map_getState_congr fun state found => ?_)
          obtain rfl := getState_name found
          by_cases own : owner = state.name
          · rw [if_pos own, setCode_eq]
            cases kind <;>
              simp [Call.onNode, StateCommand.codeFor, StateCommand.nextFor,
                StateCommand.eventFor, accepts, own, addFresh]
          · rw [if_neg own]
            simp [Call.onNode, StateCommand.codeFor, StateCommand.nextFor,
              StateCommand.eventFor, own, addFresh]

theorem getState_createState : (config.call ⟨env, .createState, params⟩).getState name =
    if params.head? = some name then (config.getState name).or (some (makeNewState name))
    else config.getState name := by
  match params with
  | [] => rfl
  | created :: others =>
      simp only [call, StateCommand.handler, after_createState, List.head?_cons,
        Option.some.injEq]
      by_cases known : created ∈ config.stateNames
      · rw [if_pos known]
        split
        · rename_i same
          subst created
          obtain ⟨state, found⟩ := Option.isSome_iff_exists.mp (getState_isSome.mpr known)
          simp [found]
        · rfl
      · rw [if_neg known]
        simp only [getState, List.find?_append, List.find?_singleton]
        by_cases same : created = name
        · subst created
          simp [makeNewState]
        · simp [makeNewState, same]

theorem stateNames_createState : (config.call ⟨env, .createState, params⟩).stateNames =
    addFresh id config.stateNames (StateCommand.nameFor .createState params) := by
  match params with
  | [] => rfl
  | created :: others =>
      simp only [call, StateCommand.handler, after_createState, StateCommand.nameFor, addFresh,
        List.map_id_fun, id_eq]
      split
      · rfl
      · simp [stateNames, makeNewState]

end CliConfig

end AutoDrop
