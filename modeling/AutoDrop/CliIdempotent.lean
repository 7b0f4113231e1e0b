import AutoDrop.CliPasses

/-!
Importing a saved text twice. The second pass finds every state, so a code that the first
pass could not write yet is written then; nothing else can differ.
-/

namespace AutoDrop

open FoldRules SplitText

namespace CliConfig

variable {config target : CliConfig} {env : CliEnv} {name : Chars} {calls : List CliConfig.Call}
  {one : CliConfig.Call}

def Call.Writes (one : Call) (name : Chars) (type : ActionType) : Prop :=
  one.command.codeFor one.env name type one.params ≠ none

def Call.Creates (one : Call) (name : Chars) : Prop :=
  one.command.nameFor one.params = some name

/-- A state that the target does not have gets a code behind its first `create_state`, if it
is given one before. -/
def WritesInTime (env : CliEnv) (config target : CliConfig) : Prop :=
  ∀ name, name ∉ target.stateNames → ∀ before one after,
    config.buildCalls env = before ++ one :: after → one.Creates name →
      (∀ other ∈ before, ¬other.Creates name) → ∀ type,
        (∃ other ∈ before, other.Writes name type) → ∃ other ∈ after, other.Writes name type

def codeInputs (calls : List Call) (name : Chars) (type : ActionType) :
    List (Option (Option Chars)) :=
  calls.map fun one => (one.command.codeFor one.env name type one.params).map some

theorem reduce_codeInputs_eq_nil {type : ActionType} :
    (codeInputs calls name type).reduceOption = [] ↔ ∀ one ∈ calls, ¬one.Writes name type := by
  simp [codeInputs, List.reduceOption, List.filterMap_eq_nil_iff, Call.Writes]

theorem exists_writes_iff {type : ActionType} : (∃ one ∈ calls, one.Writes name type) ↔
    (codeInputs calls name type).reduceOption ≠ [] := by
  simp [reduce_codeInputs_eq_nil]

theorem restoreNewlines_ne_nil {code : Chars} (nonempty : code ≠ []) :
    restoreNewlines code ≠ [] := by
  match code with
  | [] => exact absurd rfl nonempty
  | [c] => simp [restoreNewlines]
  | c :: d :: rest =>
      unfold restoreNewlines
      split <;> simp_all

theorem splitInto_ne_nil {input word : Chars} (member : word ∈ splitInto input) : word ≠ [] := by
  rw [splitInto_eq, List.mem_filter] at member
  simpa using member.2

/-- No written code is empty: the splitter delivers no empty word. -/
theorem reduce_codeInputs_ne {type : ActionType} {written : Option Chars}
    (member : written ∈ (codeInputs (config.buildCalls env) name type).reduceOption) :
    written ≠ some [] := by
  rw [List.reduceOption_mem_iff] at member
  obtain ⟨one, listed, same⟩ := List.mem_map.mp member
  obtain ⟨code, writes, rfl⟩ := Option.map_eq_some_iff.mp same
  obtain ⟨line, _, rfl⟩ := List.mem_map.mp listed
  simp only [BdrLine.call] at writes
  unfold StateCommand.codeFor at writes
  split at writes
  · rename_i owner word text others _ params
    split at writes
    · have nonempty : text ≠ [] := splitInto_ne_nil (by rw [params]; simp)
      obtain rfl := Option.some.inj writes
      simpa using restoreNewlines_ne_nil nonempty
    · cases writes
  · cases writes

theorem getLast?_append_getD {α : Type*} (first second : List α) (value : α) :
    ((first ++ second).getLast?).getD value =
      (second.getLast?).getD ((first.getLast?).getD value) := by
  rw [List.getLast?_append]
  cases second.getLast? <;> rfl

theorem code_onNodes (names : List Chars) (calls : List Call) (state : StateNode)
    (type : ActionType) : (onNodes names calls state).code type =
      ((codeInputs calls state.name type).reduceOption.getLast?).getD (state.code type) := by
  rw [onNodes_code, foldl_overwrite]
  rfl

theorem code_again (names : List Chars) (calls : List Call) (state : StateNode)
    (type : ActionType) : (onNodes names calls (onNodes [] calls state)).code type =
      (onNodes [] calls state).code type := by
  rw [code_onNodes, code_onNodes, onNodes_name]
  cases (codeInputs calls state.name type).reduceOption.getLast? <;> rfl

/-- A second pass over a created state changes a code exactly if it was only written before. -/
theorem code_created (names : List Chars) {before after : List Call}
    (split : config.buildCalls env = before ++ one :: after) (creates : one.Creates name)
    (type : ActionType) :
    (onNodes names (config.buildCalls env) (onNodes [] after (makeNewState name))).code type =
        (onNodes [] after (makeNewState name)).code type ↔
      ((∃ other ∈ before, other.Writes name type) → ∃ other ∈ after, other.Writes name type) := by
  have silent : one.command.codeFor one.env name type one.params = none := by
    obtain ⟨env, command, params⟩ := one
    cases command with
    | createState => rfl
    | _ => cases creates
  have inputs : (codeInputs (config.buildCalls env) name type).reduceOption =
      (codeInputs before name type).reduceOption ++ (codeInputs after name type).reduceOption := by
    rw [split, codeInputs, List.map_append, List.map_cons, silent, List.reduceOption_append]
    rfl
  have fresh : (makeNewState name).code type = some [] := by cases type <;> rfl
  have own : (makeNewState name).name = name := rfl
  rw [code_onNodes, code_onNodes, onNodes_name, own, fresh, inputs, getLast?_append_getD,
    exists_writes_iff, exists_writes_iff, ← List.getLast?_isSome, ← List.getLast?_isSome]
  cases later : (codeInputs after name type).reduceOption.getLast? with
  | some code => simp
  | none =>
      cases early : (codeInputs before name type).reduceOption.getLast? with
      | none => simp
      | some code =>
          have written : code ∈ (codeInputs (config.buildCalls env) name type).reduceOption := by
            rw [inputs]
            exact List.mem_append_left _ (List.mem_of_getLast? early)
          simp [reduce_codeInputs_ne written]

def pass (env : CliEnv) (config target : CliConfig) : CliConfig :=
  replayMenu env .stateMachine target (config.bdrLines .stateMachine)

def built (env : CliEnv) (config target : CliConfig) : CliConfig :=
  (config.buildCalls env).foldl call target

theorem pass_eq (env : CliEnv) (config target : CliConfig) : pass env config target =
    { (config.linkCalls env).foldl call (built env config target) with
      initState := match config.initOf with
        | none => target.initState
        | some name =>
            if name ∈ (built env config target).stateNames then name else target.initState } := by
  have builds : (built env config target).initState = target.initState :=
    builds_initState buildCalls_builds
  obtain ⟨names, init⟩ : ((config.linkCalls env).foldl call (built env config target)).stateNames =
      (built env config target).stateNames ∧
        ((config.linkCalls env).foldl call (built env config target)).initState =
          (built env config target).initState := calls_names (linkCalls_createNone _)
  rw [builds] at init
  rw [pass, replay_stateMachine]
  simp only [built] at names init ⊢
  cases config.initOf with
  | none => rw [← init]
  | some name =>
      simp only [names]
      by_cases listed : name ∈ stateNames ((config.buildCalls env).foldl call target)
      · simp only [listed, if_true]
      · simp only [listed, if_false]
        rw [← init]

theorem pass_getState (env : CliEnv) (config target : CliConfig) (name : Chars) :
    (pass env config target).getState name = ((built env config target).getState name).map
      (onNodes (built env config target).stateNames (config.linkCalls env)) := by
  rw [pass_eq]
  exact getState_calls (linkCalls_createNone _) name

theorem pass_names (env : CliEnv) (config target : CliConfig) :
    (pass env config target).stateNames = (built env config target).stateNames := by
  rw [pass_eq]
  exact (calls_names (linkCalls_createNone _)).1

theorem again_createsNone (env : CliEnv) (config target : CliConfig) :
    ∀ one ∈ config.buildCalls env, one.CreatesNone (pass env config target).stateNames := by
  rw [pass_names]
  exact builds_createNone buildCalls_builds

theorem links_code (names : List Chars) (state : StateNode) (type : ActionType) :
    (onNodes names (config.linkCalls env) state).code type = state.code type := by
  rw [code_onNodes, reduce_codeInputs_eq_nil.mpr]
  · rfl
  · intro one member writes
    rcases linkCalls_links one member with command | command <;>
      simp [Call.Writes, StateCommand.codeFor, command] at writes

theorem builds_next (env : CliEnv) (config : CliConfig) (names : List Chars) (state : StateNode) :
    (onNodes names (config.buildCalls env) state).next = state.next ∧
      (onNodes names (config.buildCalls env) state).events = state.events := by
  have builds := (buildCalls_builds : ∀ one ∈ config.buildCalls env, one.Builds)
  revert builds
  generalize config.buildCalls env = calls
  intro builds
  induction calls generalizing state with
  | nil => exact ⟨rfl, rfl⟩
  | cons first rest ih =>
      have later := ih (first.onNode names state) fun one member =>
        builds one (List.mem_cons_of_mem _ member)
      have here : (first.onNode names state).next = state.next ∧
          (first.onNode names state).events = state.events := by
        obtain ⟨env, command, params⟩ := first
        rcases builds _ (List.mem_cons_self) with rfl | rfl <;> exact ⟨rfl, rfl⟩
      exact ⟨later.1.trans here.1, later.2.trans here.2⟩

theorem node_again (names : List Chars) (state : StateNode) :
    onNodes names (config.linkCalls env) (onNodes names (config.buildCalls env)
        (onNodes names (config.linkCalls env) state)) =
      onNodes names (config.linkCalls env) state ↔
    ∀ type, (onNodes names (config.buildCalls env) state).code type = state.code type := by
  have code (type : ActionType) : (onNodes names (config.linkCalls env) (onNodes names
      (config.buildCalls env) (onNodes names (config.linkCalls env) state))).code type =
        (onNodes names (config.buildCalls env) state).code type := by
    rw [links_code, code_onNodes names (config.buildCalls env), links_code, onNodes_name,
      ← code_onNodes]
  constructor
  · intro same type
    rw [← code type, same, links_code]
  · intro same
    have builds := builds_next env config names
      (onNodes names (config.linkCalls env) state)
    refine node_ext ?_ (fun type => ?_) ?_ ?_
    · simp only [onNodes_name]
    · rw [code type, same type, links_code]
    · rw [onNodes_next, builds.1, onNodes_name, onNodes_name, onNodes_next,
        foldl_overwrite_twice]
    · rw [onNodes_events, builds.2, onNodes_name, onNodes_name, onNodes_events,
        foldl_addFresh_twice]

section Again

variable {second : CliConfig} (states : second.states = (pass env config target).states)

include states

theorem again_names : second.stateNames = (pass env config target).stateNames := by
  rw [stateNames, states, ← stateNames]

theorem again_lookup (name : Chars) :
    second.getState name = (pass env config target).getState name := by
  rw [CliConfig.getState, states, ← CliConfig.getState]

theorem again_built : (built env config second).stateNames =
      (built env config target).stateNames ∧ ∀ name, (built env config second).getState name =
        (second.getState name).map
          (onNodes (built env config target).stateNames (config.buildCalls env)) := by
  have names := again_names states
  have none : ∀ one ∈ config.buildCalls env, one.CreatesNone second.stateNames := by
    rw [names]
    exact again_createsNone env config target
  have lookups := getState_calls none
  rw [names, pass_names] at lookups
  refine ⟨?_, lookups⟩
  rw [built, (calls_names none).1, names, pass_names]

theorem again_sameBehind : SameBehind [] second.states (pass env config second).states := by
  have none : ∀ one ∈ config.buildCalls env, one.CreatesNone second.stateNames := by
    rw [again_names states]
    exact again_createsNone env config target
  rw [pass_eq env config second]
  exact (calls_sameBehind none).trans (calls_sameBehind (linkCalls_createNone _))

theorem again_states_iff : (pass env config second).states = second.states ↔
    ∀ name state, (built env config target).getState name = some state → ∀ type,
      (onNodes (built env config target).stateNames (config.buildCalls env) state).code type =
        state.code type := by
  obtain ⟨names, lookups⟩ := again_built states
  have before (name : Chars) : second.getState name =
      ((built env config target).getState name).map
        (onNodes (built env config target).stateNames (config.linkCalls env)) := by
    rw [again_lookup states, pass_getState]
  have after (name : Chars) : (pass env config second).getState name =
      ((second.getState name).map (onNodes (built env config target).stateNames
        (config.buildCalls env))).map (onNodes (built env config target).stateNames
          (config.linkCalls env)) := by
    rw [pass_getState, names, lookups]
  constructor
  · intro same name state found
    have equal : (pass env config second).getState name = second.getState name := by
      rw [CliConfig.getState, same, ← CliConfig.getState]
    rw [after, before, found] at equal
    exact (node_again _ state).mp (Option.some.inj equal)
  · intro keeps
    refine ((again_sameBehind states).ext fun name _ => ?_).symm
    have equal : second.getState name = (pass env config second).getState name := by
      rw [after, before]
      cases found : (built env config target).getState name with
      | none => rfl
      | some state =>
          exact congrArg some ((node_again _ state).mpr (keeps name state found)).symm
    exact equal

theorem again_initState (init : second.initState = (pass env config target).initState) :
    (pass env config second).initState = second.initState := by
  have names := (again_built states).1
  rw [pass_eq env config second]
  rw [pass_eq env config target] at init
  simp only [names]
  cases chosen : config.initOf with
  | none => rfl
  | some name =>
      simp only [chosen] at init ⊢
      by_cases listed : name ∈ (built env config target).stateNames
      · simp only [listed, if_true] at init ⊢
        exact init.symm
      · simp only [listed, if_false]

end Again

theorem codes_kept_iff : (∀ name state, (built env config target).getState name = some state →
      ∀ type, (onNodes (built env config target).stateNames (config.buildCalls env) state).code
        type = state.code type) ↔ WritesInTime env config target := by
  have builds : ∀ one ∈ config.buildCalls env, one.Builds := buildCalls_builds
  constructor
  · intro keeps name away before one after split creates first type early
    exact (code_created _ split creates type).mp
      (keeps name _ (builds_created builds split creates first away) type) early
  · intro inTime name state found type
    by_cases old : name ∈ target.stateNames
    · rw [built, builds_getState builds old] at found
      obtain ⟨original, _, rfl⟩ := Option.map_eq_some_iff.mp found
      exact code_again _ _ original type
    rcases builds_cases builds name with (listed : name ∈ target.stateNames) |
      ⟨before, one, after, split, creates, first⟩ | absent
    · exact absurd listed old
    · have created := builds_created builds split creates first old
      obtain rfl := Option.some.inj (created.symm.trans found)
      exact (code_created _ split creates type).mpr
        (inTime name old before one after split creates first type)
    · exact absurd (mem_stateNames found) absent

/-- Importing a saved text a second time changes nothing, exactly if every state that the
target does not have gets a code that is written before its `create_state` also behind it. -/
theorem importText_twice_iff (env : CliEnv) (config target : CliConfig)
    (printable : config.Printable) :
    (target.importText env (config.saved env)).importText env (config.saved env) =
        target.importText env (config.saved env) ↔ WritesInTime env config target := by
  obtain ⟨first, once⟩ : ∃ first, target.importText env (config.saved env) = first := ⟨_, rfl⟩
  rw [once, importText_eq printable first]
  rw [importText_eq printable target] at once
  obtain ⟨start, begins⟩ : ∃ start : CliConfig, { target with
    devices := (config.deviceInputs env).foldl (addFresh DeviceNode.name) target.devices } =
      start := ⟨_, rfl⟩
  have names : WritesInTime env config target ↔ WritesInTime env config start := by
    rw [← begins]
    rfl
  have frame : (pass env config start).devices = start.devices := (replay_frame config env start).1
  rw [begins, ← pass] at once
  -- the devices, the log filters and the redis parameters are settled
  have devices : (config.deviceInputs env).foldl (addFresh DeviceNode.name) first.devices =
      first.devices := by
    rw [← once, frame, ← begins]
    exact foldl_addFresh_twice _ _
  have logs : config.logInputs.foldl (addFresh id) first.logConfig = first.logConfig := by
    rw [← once]
    exact foldl_addFresh_twice _ _
  have redis : config.redisInput.getD first.redis = first.redis := by
    rw [← once]
    cases config.redisInput <;> rfl
  have states : first.states = (pass env config start).states := by rw [← once]
  have init : first.initState = (pass env config start).initState := by rw [← once]
  have again := again_initState states init
  have frame' := replay_frame config env first
  rw [← pass] at frame'
  rw [devices, logs, redis, ← pass, names, ← codes_kept_iff, ← again_states_iff states]
  constructor
  · intro same
    have equal := congrArg CliConfig.states same
    exact equal
  · intro same
    simp only [frame'.1, again, same]

def greeting : CliConfig :=
  [⟨.silent, .createState, ["a".toList]⟩,
    ⟨.silent, .inputAction, ["a".toList, "enter".toList, "b=\"1\"".toList]⟩].foldl call cleared

theorem greeting_printable : greeting.Printable :=
  ⟨by decide, by decide, by decide, by decide, by decide, by decide⟩

theorem importText_twice_iff_greeting : WritesInTime .silent greeting cleared :=
  (importText_twice_iff .silent greeting cleared greeting_printable).mp (by decide)

/-- Two states whose names begin with a quote. The line of the first one's code is read as
one that writes a code of the second state, which is created behind it. -/
def shadowing : List Call :=
  [⟨.silent, .createState, ["\"x".toList]⟩,
    ⟨.silent, .inputAction, ["\"x".toList, "enter".toList, "exit 'a=1'".toList]⟩,
    ⟨.silent, .createState, ["\"x enter ".toList]⟩]

theorem importText_twice_differs : (∀ one ∈ shadowing, Delivered one.params) ∧
    let text := (shadowing.foldl call cleared).saved .silent
    (cleared.importText .silent text).importText .silent text ≠
      cleared.importText .silent text := by
  refine ⟨fun one member => delivered_iff.mpr ?_, ?_⟩
  · revert one
    decide
  · intro text same
    have first : ((cleared.importText .silent text).getState "x enter ".toList).map
        StateNode.exit = some (some []) := by decide
    have second : (((cleared.importText .silent text).importText .silent text).getState
        "x enter ".toList).map StateNode.exit = some (some "a=1".toList) := by decide
    rw [same, first] at second
    simp at second

end CliConfig

end AutoDrop
