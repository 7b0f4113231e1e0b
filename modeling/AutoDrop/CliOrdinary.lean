import AutoDrop.CliIdempotent
import AutoDrop.CliNumbers

/-!
The configurations that are built by commands from the cleared one, with words that a line
can deliver as parameters. Their names are distinct and never empty.
-/

namespace AutoDrop

open FoldRules

inductive ConfigCommand
  | addDevice
  | createState
  | setNext
  | addEvent
  | setInit
  | redisParams
  | enableLog
deriving DecidableEq, Repr

def ConfigCommand.handler (env : CliEnv) : ConfigCommand → CliHandler
  | addDevice => CliConfig.addDevice env
  | createState => CliConfig.createState
  | setNext => CliConfig.setNext
  | addEvent => CliConfig.addEvent
  | setInit => CliConfig.setInit
  | redisParams => CliConfig.redisParams
  | enableLog => CliConfig.enableLog

def Word (word : Chars) : Prop := word ≠ [] ∧ '\n' ∉ word

instance (word : Chars) : Decidable (Word word) := inferInstanceAs (Decidable (_ ∧ _))

structure StateNode.Ordinary (state : StateNode) : Prop where
  name : Word state.name
  code : ∀ type, state.code type = some []
  event : ∀ event ∈ state.events,
    ∃ trigger target, event = ⟨some trigger, some target⟩ ∧ Word trigger

structure DeviceNode.Ordinary (env : CliEnv) (device : DeviceNode) : Prop where
  installed : device.driver ∈ env.allDriver
  driver : Word device.driver
  name : Word device.name
  args : Word device.args

namespace CliConfig

structure Ordinary (env : CliEnv) (config : CliConfig) : Prop where
  closed : config.Closed
  devices : (config.devices.map DeviceNode.name).Nodup
  device : ∀ device ∈ config.devices, device.Ordinary env
  state : ∀ state ∈ config.states, state.Ordinary
  redis : config.redis = ⟨[], 0, []⟩ ∨ Word config.redis.host ∧ Word config.redis.password ∧
    -2 ^ 31 ≤ config.redis.port ∧ config.redis.port < 2 ^ 31
  logs : config.logConfig.Nodup
  log : ∀ log ∈ config.logConfig, Word log.logModule ∧ Word log.logLevel

def runConfig (env : CliEnv) (config : CliConfig) (one : ConfigCommand × List Chars) : CliConfig :=
  config.after (one.1.handler env config one.2)

/-- Built from the cleared configuration with words that input lines can deliver. -/
def FromCleared (env : CliEnv) (config : CliConfig) : Prop :=
  ∃ calls : List (ConfigCommand × List Chars), (∀ one ∈ calls, Delivered one.2) ∧
    config = calls.foldl (runConfig env) cleared

variable {env : CliEnv} {config : CliConfig} {params : List Chars}

theorem cleared_ordinary (env : CliEnv) : Ordinary env cleared :=
  ⟨cleared_closed, List.nodup_nil, fun _ member => by (cases member),
    fun _ member => by (cases member), .inl rfl, List.nodup_nil, fun _ member => by (cases member)⟩

theorem Ordinary.states (ordinary : config.Ordinary env) {next : CliConfig} (closed : next.Closed)
    (frame : next.devices = config.devices ∧ next.redis = config.redis ∧
      next.logConfig = config.logConfig)
    (state : ∀ state ∈ next.states, state.Ordinary) : next.Ordinary env := by
  obtain ⟨devices, redis, logs⟩ := frame
  exact ⟨closed, devices ▸ ordinary.devices, devices ▸ ordinary.device, state,
    redis ▸ ordinary.redis, logs ▸ ordinary.logs, logs ▸ ordinary.log⟩

theorem Ordinary.edit (ordinary : config.Ordinary env) {name : Chars}
    {edit : StateNode → StateNode} (keeps : ∀ state : StateNode, state.Ordinary →
      (edit state).Ordinary) : ∀ state ∈ editState name edit config.states, state.Ordinary := by
  intro state member
  rcases mem_editState member with listed | ⟨found, first, rfl⟩
  · exact ordinary.state state listed
  · exact keeps found (ordinary.state found (List.mem_of_find?_eq_some first))

theorem makeNewState_ordinary {name : Chars} (word : Word name) : (makeNewState name).Ordinary :=
  ⟨word, fun type => by cases type <;> rfl, fun _ member => by (cases member)⟩

theorem Effect.ordinary {next : CliConfig} {command : StateCommand}
    (effect : Effect config command params next) (ordinary : config.Ordinary env)
    (words : ∀ word ∈ params, Word word) (printed : command = .createState ∨
      command = .setNext ∨ command = .addEvent ∨ command = .setInit) :
    ∀ state ∈ next.states, state.Ordinary := by
  cases effect with
  | refused | setInit => exact ordinary.state
  | createState =>
      intro state member
      rcases List.mem_append.mp member with member | member
      · exact ordinary.state state member
      · rw [List.mem_singleton.mp member]
        exact makeNewState_ordinary (words _ (by simp))
  | setNext =>
      exact ordinary.edit fun state before => ⟨before.name, before.code, before.event⟩
  | @addEvent _ trigger target =>
      refine ordinary.edit fun state before =>
        ⟨before.name, before.code, fun event member => ?_⟩
      rcases List.mem_append.mp member with member | member
      · exact before.event event member
      · exact ⟨trigger, target, List.mem_singleton.mp member, words trigger (by simp)⟩
  | setCode writes => rcases writes with rfl | rfl <;> simp at printed
  | clear => simp at printed

theorem deviceOf_ordinary (words : ∀ word ∈ params, Word word) {device : DeviceNode}
    (asked : deviceOf env params = some device) : device.Ordinary env := by
  match params with
  | driver :: name :: args :: others =>
      simp only [deviceOf] at asked
      split at asked
      · rename_i installed
        obtain rfl := Option.some.inj asked
        exact ⟨installed, words _ (by simp), words _ (by simp), words _ (by simp)⟩
      · cases asked
  | [] | [_] | [_, _] => cases asked

theorem Ordinary.addDevice (ordinary : config.Ordinary env) (words : ∀ word ∈ params, Word word) :
    (config.after (config.addDevice env params)).Ordinary env := by
  rw [after_addDevice_params]
  refine ⟨⟨ordinary.closed.names, ordinary.closed.state, ordinary.closed.init⟩,
    nodup_addFresh ordinary.devices, fun device member => ?_, ordinary.state, ordinary.redis,
    ordinary.logs, ordinary.log⟩
  rcases mem_addFresh member with listed | asked
  · exact ordinary.device device listed
  · exact deviceOf_ordinary words asked

theorem Ordinary.redisParams (ordinary : config.Ordinary env)
    (words : ∀ word ∈ params, Word word) :
    (config.after (config.redisParams params)).Ordinary env := by
  rw [after_redisParams_params]
  refine ⟨⟨ordinary.closed.names, ordinary.closed.state, ordinary.closed.init⟩,
    ordinary.devices, ordinary.device, ordinary.state, ?_, ordinary.logs, ordinary.log⟩
  match params with
  | host :: port :: password :: others =>
      simp only [redisOf]
      cases read : stoi port with
      | none => exact ordinary.redis
      | some number =>
          refine .inr ⟨words _ (by simp), words _ (by simp), ?_⟩
          have fits := (Option.filter_eq_some_iff.mp read).2
          simpa using fits
  | [] | [_] | [_, _] => exact ordinary.redis

theorem Ordinary.enableLog (ordinary : config.Ordinary env)
    (words : ∀ word ∈ params, Word word) :
    (config.after (config.enableLog params)).Ordinary env := by
  rw [after_enableLog_params]
  have nodup : (addFresh id config.logConfig (logOf params)).Nodup := by
    have keys : (config.logConfig.map id).Nodup := by simpa using ordinary.logs
    simpa using (nodup_addFresh keys : (List.map id (addFresh id _ (logOf params))).Nodup)
  refine ⟨⟨ordinary.closed.names, ordinary.closed.state, ordinary.closed.init⟩,
    ordinary.devices, ordinary.device, ordinary.state, ordinary.redis, nodup,
    fun log member => ?_⟩
  rcases mem_addFresh member with listed | asked
  · exact ordinary.log log listed
  · rcases params with _ | ⟨logModule, _ | ⟨logLevel, others⟩⟩
    · cases asked
    · cases asked
    · obtain rfl := Option.some.inj asked
      exact ⟨words _ (by simp), words _ (by simp)⟩

theorem Ordinary.step (ordinary : config.Ordinary env) (words : ∀ word ∈ params, Word word)
    (command : ConfigCommand) : (config.runConfig env (command, params)).Ordinary env := by
  have onStates (command : StateCommand) (printed : command = .createState ∨
      command = .setNext ∨ command = .addEvent ∨ command = .setInit) :
      (config.call ⟨env, command, params⟩).Ordinary env :=
    ordinary.states (ordinary.closed.step command params) (call_effect config _).frame
      ((call_effect config _).ordinary ordinary words printed)
  cases command with
  | createState => exact onStates .createState (by simp)
  | setNext => exact onStates .setNext (by simp)
  | addEvent => exact onStates .addEvent (by simp)
  | setInit => exact onStates .setInit (by simp)
  | addDevice => exact ordinary.addDevice words
  | redisParams => exact ordinary.redisParams words
  | enableLog => exact ordinary.enableLog words

theorem FromCleared.ordinary (built : FromCleared env config) : config.Ordinary env := by
  obtain ⟨calls, delivered, rfl⟩ := built
  have all (calls : List (ConfigCommand × List Chars)) (start : CliConfig)
      (ordinary : start.Ordinary env) (delivered : ∀ one ∈ calls, Delivered one.2) :
      (calls.foldl (runConfig env) start).Ordinary env := by
    induction calls generalizing start with
    | nil => exact ordinary
    | cons first rest ih =>
        exact ih _ (ordinary.step (delivered_iff.mp (delivered first (by simp))) first.1)
          fun one member => delivered one (List.mem_cons_of_mem _ member)
  exact all calls cleared (cleared_ordinary env) delivered

theorem Ordinary.printable (ordinary : config.Ordinary env) : config.Printable where
  device device member := by
    have words := ordinary.device device member
    exact ⟨words.name.2, words.driver.2, words.args.2⟩
  state state member := by
    refine ⟨(ordinary.state state member).name.2, ?_⟩
    by_cases empty : state.next = []
    · simp [empty]
    · obtain ⟨target, listed, same⟩ :=
        List.mem_map.mp ((ordinary.closed.state state member).next empty)
      rw [← same]
      exact (ordinary.state target listed).name.2
  event state member event source := by
    obtain ⟨trigger, target, rfl, word⟩ := (ordinary.state state member).event event source
    obtain ⟨name, known, same⟩ := (ordinary.closed.state state member).target _ source
    obtain rfl := Option.some.inj same
    obtain ⟨other, listed, rfl⟩ := List.mem_map.mp known
    exact ⟨word.2, (ordinary.state other listed).name.2⟩
  init := by
    by_cases empty : config.initState = []
    · simp [empty]
    · obtain ⟨state, listed, same⟩ := List.mem_map.mp (ordinary.closed.init empty)
      rw [← same]
      exact (ordinary.state state listed).name.2
  redis := by
    rcases ordinary.redis with cleared | ⟨host, password, _⟩
    · simp [cleared]
    · exact ⟨host.2, password.2⟩
  log log member := ⟨(ordinary.log log member).1.2, (ordinary.log log member).2.2⟩

end CliConfig

end AutoDrop
