import AutoDrop.CliParts

/-!
Runs of commands on the state machine, state by state, and the runs that a saved text makes
in each menu.
-/

namespace AutoDrop

open FoldRules SplitText

namespace CliConfig

variable {config : CliConfig} {env : CliEnv} {name : Chars} {names : List Chars}
  {calls : List CliConfig.Call} {one : CliConfig.Call}

def Call.Edits (one : Call) : Prop :=
  one.command = .inputAction ∨ one.command = .setNext ∨ one.command = .addEvent

theorem Call.Edits.getState (edits : one.Edits) (config : CliConfig) (name : Chars) :
    (config.call one).getState name =
      (config.getState name).map (one.onNode config.stateNames) := by
  obtain ⟨env, command, params⟩ := one
  rcases edits with rfl | rfl | rfl
  · exact getState_inputAction
  · exact getState_setNext
  · exact getState_addEvent

theorem names_editState {owner : Chars} {edit : StateNode → StateNode}
    (keeps : ∀ state, (edit state).name = state.name) :
    stateNames { config with states := editState owner edit config.states } =
      config.stateNames :=
  editState_names keeps

theorem Call.Edits.frame (edits : one.Edits) (config : CliConfig) :
    (config.call one).stateNames = config.stateNames ∧
      (config.call one).initState = config.initState := by
  rcases (call_effect config one).edits edits with same | ⟨owner, edit, keeps, same⟩
  · rw [same]
    exact ⟨rfl, rfl⟩
  · rw [same]
    exact ⟨names_editState keeps, rfl⟩

/-- A command that changes states and creates none, since what it creates is there. -/
def Call.CreatesNone (names : List Chars) (one : Call) : Prop :=
  one.Edits ∨ one.command = .createState ∧
    ∀ created, one.command.nameFor one.params = some created → created ∈ names

theorem call_known {params : List Chars} (known : ∀ created,
      StateCommand.nameFor .createState params = some created → created ∈ config.stateNames) :
    config.call ⟨env, .createState, params⟩ = config := by
  match params with
  | [] => rfl
  | created :: others =>
      have listed := known created rfl
      simp only [call, StateCommand.handler, after_createState, listed, if_true]

theorem Call.CreatesNone.getState (none : one.CreatesNone config.stateNames) (name : Chars) :
    (config.call one).getState name =
      (config.getState name).map (one.onNode config.stateNames) := by
  rcases none with edits | ⟨command, known⟩
  · exact edits.getState config name
  · obtain ⟨env, _, params⟩ := one
    obtain rfl := command
    rw [call_known known]
    exact Option.map_id'.symm

theorem Call.CreatesNone.frame (none : one.CreatesNone config.stateNames) :
    (config.call one).stateNames = config.stateNames ∧
      (config.call one).initState = config.initState := by
  rcases none with edits | ⟨command, known⟩
  · exact edits.frame config
  · obtain ⟨env, _, params⟩ := one
    obtain rfl := command
    rw [call_known known]
    exact ⟨rfl, rfl⟩

theorem createsNone_tail {first : Call} {rest : List Call}
    (none : ∀ one ∈ first :: rest, one.CreatesNone config.stateNames) :
    ∀ one ∈ rest, one.CreatesNone (config.call first).stateNames := by
  intro one member
  rw [(none first (by simp)).frame.1]
  exact none one (List.mem_cons_of_mem _ member)

def onNodes (names : List Chars) (calls : List Call) (state : StateNode) : StateNode :=
  calls.foldl (fun state one => one.onNode names state) state

theorem calls_names (none : ∀ one ∈ calls, one.CreatesNone config.stateNames) :
    (calls.foldl call config).stateNames = config.stateNames ∧
      (calls.foldl call config).initState = config.initState := by
  induction calls generalizing config with
  | nil => exact ⟨rfl, rfl⟩
  | cons first rest ih =>
      obtain ⟨names, init⟩ := (none first (by simp)).frame
      obtain ⟨names', init'⟩ := ih (createsNone_tail none)
      exact ⟨names'.trans names, init'.trans init⟩

theorem getState_calls (none : ∀ one ∈ calls, one.CreatesNone config.stateNames)
    (name : Chars) : (calls.foldl call config).getState name =
      (config.getState name).map (onNodes config.stateNames calls) := by
  induction calls generalizing config with
  | nil => exact Option.map_id'.symm
  | cons first rest ih =>
      have names := (none first (by simp)).frame.1
      rw [List.foldl_cons, ih (createsNone_tail none), (none first (by simp)).getState, names,
        Option.map_map]
      rfl

theorem calls_frame (calls : List Call) (config : CliConfig) :
    (calls.foldl call config).devices = config.devices ∧
      (calls.foldl call config).redis = config.redis ∧
        (calls.foldl call config).logConfig = config.logConfig := by
  induction calls generalizing config with
  | nil => exact ⟨rfl, rfl, rfl⟩
  | cons first rest ih =>
      obtain ⟨devices, redis, logs⟩ := (call_effect config first).frame
      obtain ⟨devices', redis', logs'⟩ := ih (config.call first)
      exact ⟨devices'.trans devices, redis'.trans redis, logs'.trans logs⟩

section Nodes

variable (names) (calls) (state : StateNode)

theorem onNode_code (one : Call) (type : ActionType) : (one.onNode names state).code type =
    ((one.command.codeFor one.env state.name type one.params).map some).getD
      (state.code type) := by
  cases type <;> rfl

theorem onNodes_name : (onNodes names calls state).name = state.name := by
  induction calls generalizing state with
  | nil => rfl
  | cons first rest ih => exact ih (first.onNode names state)

theorem onNodes_next : (onNodes names calls state).next =
    (calls.map fun one => one.command.nextFor names state.name one.params).foldl
      (fun value input => input.getD value) state.next := by
  induction calls generalizing state with
  | nil => rfl
  | cons first rest ih => exact ih (first.onNode names state)

theorem onNodes_events : (onNodes names calls state).events =
    (calls.map fun one => one.command.eventFor names state.name one.params).foldl
      (addFresh EventNode.key) state.events := by
  induction calls generalizing state with
  | nil => rfl
  | cons first rest ih => exact ih (first.onNode names state)

theorem onNodes_code (type : ActionType) : (onNodes names calls state).code type =
    (calls.map fun one =>
        (one.command.codeFor one.env state.name type one.params).map some).foldl
      (fun value input => input.getD value) (state.code type) := by
  induction calls generalizing state with
  | nil => rfl
  | cons first rest ih =>
      rw [List.map_cons, List.foldl_cons, ← onNode_code names state first]
      exact ih (first.onNode names state)

end Nodes

theorem node_ext {first second : StateNode} (name : first.name = second.name)
    (code : ∀ type, first.code type = second.code type) (next : first.next = second.next)
    (events : first.events = second.events) : first = second := by
  obtain ⟨name₁, enter₁, exit₁, action₁, next₁, events₁⟩ := first
  obtain ⟨name₂, enter₂, exit₂, action₂, next₂, events₂⟩ := second
  obtain rfl : enter₁ = enter₂ := code .enter
  obtain rfl : exit₁ = exit₂ := code .exit
  obtain rfl : action₁ = action₂ := code .action
  simp_all

end CliConfig

def BdrLine.call (env : CliEnv) (line : BdrLine) : CliConfig.Call where
  env := env
  command :=
    if line.1 = "create_state" then .createState
    else if line.1 = "input_action" then .inputAction
    else if line.1 = "set_next" then .setNext
    else if line.1 = "add_event" then .addEvent
    else .setInit
  params := splitInto line.2

namespace CliConfig

variable {config target : CliConfig} {env : CliEnv}

def namedStates (config : CliConfig) : List StateNode :=
  config.states.filter fun state => state.name ≠ []

def buildCalls (env : CliEnv) (config : CliConfig) : List Call :=
  (config.namedStates.flatMap stateLines).map (BdrLine.call env)

def linkCalls (env : CliEnv) (config : CliConfig) : List Call :=
  (config.namedStates.flatMap transLines).map (BdrLine.call env)

theorem replayLine_call {line : BdrLine} (known : line.1 = "create_state" ∨
      line.1 = "input_action" ∨ line.1 = "set_next" ∨ line.1 = "add_event" ∨
        line.1 = "set_init") :
    replayLine env .stateMachine target line = target.call (line.call env) := by
  obtain ⟨text, rest⟩ := line
  rcases known with rfl | rfl | rfl | rfl | rfl
  · simp only [replayLine, handler_createState]
    rfl
  · simp only [replayLine, handler_inputAction]
    rfl
  · simp only [replayLine, handler_setNext]
    rfl
  · simp only [replayLine, handler_addEvent]
    rfl
  · simp only [replayLine, handler_setInit]
    rfl

theorem replayMenu_calls {lines : List BdrLine} (known : ∀ line ∈ lines,
      line.1 = "create_state" ∨ line.1 = "input_action" ∨ line.1 = "set_next" ∨
        line.1 = "add_event" ∨ line.1 = "set_init") (target : CliConfig) :
    replayMenu env .stateMachine target lines =
      (lines.map (BdrLine.call env)).foldl call target := by
  induction lines generalizing target with
  | nil => rfl
  | cons line rest ih =>
      rw [List.map_cons, List.foldl_cons, ← replayLine_call (known line (by simp)),
        ← ih fun other member => known other (List.mem_cons_of_mem _ member)]
      rfl

theorem mem_stateLines {state : StateNode} {line : BdrLine} (member : line ∈ stateLines state) :
    line.1 = "create_state" ∨ line.1 = "input_action" := by
  simp only [stateLines, List.mem_cons, List.mem_flatMap] at member
  rcases member with rfl | ⟨type, _, member⟩
  · exact .inl rfl
  · split at member
    · cases member
    · rw [List.mem_singleton.mp member]
      exact .inr rfl

theorem mem_transLines {state : StateNode} {line : BdrLine} (member : line ∈ transLines state) :
    line.1 = "set_next" ∨ line.1 = "add_event" := by
  simp only [transLines, List.mem_append, List.mem_map] at member
  rcases member with member | ⟨event, _, rfl⟩
  · split at member
    · cases member
    · rw [List.mem_singleton.mp member]
      exact .inl rfl
  · exact .inr rfl

/-- The name that the line `set_init` gives, if it is printed. -/
def initOf (config : CliConfig) : Option Chars :=
  if config.initState = [] then none else (splitInto (printWords [config.initState])).head?

theorem replay_stateMachine (target : CliConfig) :
    replayMenu env .stateMachine target (config.bdrLines .stateMachine) =
      let linked := (config.linkCalls env).foldl call ((config.buildCalls env).foldl call target)
      match config.initOf with
      | none => linked
      | some name =>
          if name ∈ linked.stateNames then { linked with initState := name } else linked := by
  have build : replayMenu env .stateMachine target (config.namedStates.flatMap stateLines) =
      (config.buildCalls env).foldl call target := by
    refine replayMenu_calls (fun line member => ?_) target
    obtain ⟨state, _, member⟩ := List.mem_flatMap.mp member
    rcases mem_stateLines member with same | same <;> simp [same]
  have link (middle : CliConfig) : replayMenu env .stateMachine middle
      (config.namedStates.flatMap transLines) = (config.linkCalls env).foldl call middle := by
    refine replayMenu_calls (fun line member => ?_) middle
    obtain ⟨state, _, member⟩ := List.mem_flatMap.mp member
    rcases mem_transLines member with same | same <;> simp [same]
  simp only [bdrLines, replayMenu, List.foldl_append] at build link ⊢
  simp only [namedStates] at build link
  rw [build, link, initOf]
  split
  · rfl
  · rw [List.foldl_cons, List.foldl_nil, replayLine_call (by simp)]
    simp only [BdrLine.call]
    cases splitInto (printWords [config.initState]) with
    | nil => rfl
    | cons name others => exact @after_setInit _ others name

def deviceInputs (env : CliEnv) (config : CliConfig) : List (Option DeviceNode) :=
  config.devices.map fun device => deviceOf env
    (splitInto (printWords [device.driver, device.name] ++ printQuoted device.args))

def logInputs (config : CliConfig) : List (Option LogOutputConfig) :=
  config.logConfig.map fun log => logOf (splitInto (printWords [log.logModule, log.logLevel]))

def redisInput (config : CliConfig) : Option RedisNode :=
  if config.redis.host = [] then none
  else redisOf (splitInto (printWords
    [config.redis.host, intToString config.redis.port, config.redis.password]))

theorem replay_device (devices : List DeviceNode) (target : CliConfig) :
    replayMenu env .device target (devices.map fun device =>
      ("add_device", printWords [device.driver, device.name] ++ printQuoted device.args)) =
    { target with
      devices := (devices.map fun device => deviceOf env
        (splitInto (printWords [device.driver, device.name] ++ printQuoted device.args))).foldl
          (addFresh DeviceNode.name) target.devices } := by
  induction devices generalizing target with
  | nil => rfl
  | cons device rest ih =>
      simp only [replayMenu] at ih
      simp only [replayMenu, List.map_cons, List.foldl_cons, replayLine, handler_addDevice,
        after_addDevice_params]
      rw [ih]

variable (env) in
theorem replay_logs (logs : List LogOutputConfig) (target : CliConfig) :
    replayMenu env .runtime target (logs.map fun log =>
      ("enable_log", printWords [log.logModule, log.logLevel])) =
    { target with
      logConfig := (logs.map fun log => logOf
        (splitInto (printWords [log.logModule, log.logLevel]))).foldl
          (addFresh id) target.logConfig } := by
  induction logs generalizing target with
  | nil => rfl
  | cons log rest ih =>
      simp only [replayMenu] at ih
      simp only [replayMenu, List.map_cons, List.foldl_cons, replayLine, handler_enableLog,
        after_enableLog_params]
      rw [ih]

theorem replay_runtime (target : CliConfig) :
    replayMenu env .runtime target (config.bdrLines .runtime) =
      { target with logConfig := config.logInputs.foldl (addFresh id) target.logConfig } := by
  have logs := replay_logs env config.logConfig target
  simp only [replayMenu] at logs
  simp only [bdrLines, replayMenu, List.foldl_append, logs, List.foldl_cons, List.foldl_nil,
    replayLine, handler_restart]
  rfl

theorem replay_redis (target : CliConfig) :
    replayMenu env .redis target (config.bdrLines .redis) =
      { target with redis := config.redisInput.getD target.redis } := by
  simp only [bdrLines, redisInput]
  split
  · rfl
  · simp only [replayMenu, List.foldl_cons, List.foldl_nil, replayLine, handler_redisParams,
      after_redisParams_params]

variable (env config) in
theorem replay_frame (target : CliConfig) :
    let machine := replayMenu env .stateMachine target (config.bdrLines .stateMachine)
    machine.devices = target.devices ∧ machine.redis = target.redis ∧
      machine.logConfig = target.logConfig := by
  have first := calls_frame (config.buildCalls env) target
  have second := calls_frame (config.linkCalls env) ((config.buildCalls env).foldl call target)
  rw [replay_stateMachine]
  have all := And.intro (second.1.trans first.1)
    (And.intro (second.2.1.trans first.2.1) (second.2.2.trans first.2.2))
  cases config.initOf with
  | none => exact all
  | some name =>
      simp only
      split <;> exact all

theorem importText_eq (printable : config.Printable) (target : CliConfig) :
    target.importText env (config.saved env) =
      { replayMenu env .stateMachine
          { target with
            devices := (config.deviceInputs env).foldl (addFresh DeviceNode.name) target.devices }
          (config.bdrLines .stateMachine) with
        logConfig := config.logInputs.foldl (addFresh id) target.logConfig
        redis := config.redisInput.getD target.redis } := by
  have frame := replay_frame config env { target with
    devices := (config.deviceInputs env).foldl (addFresh DeviceNode.name) target.devices }
  have device : replayMenu env .device target (config.bdrLines .device) = { target with
      devices := (config.deviceInputs env).foldl (addFresh DeviceNode.name) target.devices } :=
    replay_device config.devices target
  rw [importText_saved printable]
  simp only [Submenu.all, List.foldl_cons, List.foldl_nil, device, replay_runtime,
    replay_redis, frame.2.1, frame.2.2]

end CliConfig

end AutoDrop
