import AutoDrop.CliOrdinary

/-!
A saved text on a cleared configuration. As each line adds at most one entry, the replay
rebuilds all of them only if every line is read back as it was printed.
-/

namespace AutoDrop

open FoldRules SplitText

def StateNode.settings (state : StateNode) : Chars × Chars × List EventNode :=
  (state.name, state.next, state.events)

structure CliConfig.SameSettings (first second : CliConfig) : Prop where
  devices : first.devices = second.devices
  states : first.states.map StateNode.settings = second.states.map StateNode.settings
  init : first.initState = second.initState
  redis : first.redis = second.redis
  logs : first.logConfig = second.logConfig

/-- Every field is read back from where it is printed without escaping. -/
structure CliConfig.PlainlyPrinted (config : CliConfig) : Prop where
  device : ∀ device ∈ config.devices,
    Plain device.driver ∧ Plain device.name ∧ PlainQuoted device.args
  state : ∀ state ∈ config.states, Plain state.name
  trigger : ∀ state ∈ config.states, ∀ event ∈ state.events, Plain (event.trigger.getD [])
  redis : config.redis.host ≠ [] → Plain config.redis.host ∧ Plain config.redis.password
  log : ∀ log ∈ config.logConfig, Plain log.logModule ∧ Plain log.logLevel

section Words

variable {driver name args : Chars}

theorem device_words (nonempty : driver ≠ [] ∧ name ≠ [] ∧ args ≠ []) :
    (∃ others, splitInto (printWords [driver, name] ++ printQuoted args) =
      driver :: name :: args :: others) ↔ Plain driver ∧ Plain name ∧ PlainQuoted args := by
  constructor
  · rintro ⟨others, first⟩
    have start : splitInto (printWords [driver, name] ++ printQuoted args) =
        [driver, name] ++ args :: others := first
    have spent : (printWords [driver, name] ++ printQuoted args).length ≤
        weight (splitInto (printWords [driver, name] ++ printQuoted args)) + 2 := by
      have last := weight_cons args others
      rw [start, weight_append, List.length_append, length_printWords, length_printQuoted]
      omega
    obtain ⟨plain, later⟩ := plain_of_printWords (spaced_printQuoted args)
      (by simp [nonempty]) start spent
    exact ⟨plain driver (by simp), plain name (by simp),
      plainQuoted_of_splitInto nonempty.2.2 later⟩
  · rintro ⟨first, second, third⟩
    refine ⟨[], ?_⟩
    rw [splitInto_printWords (by simp [first, second]) (spaced_printQuoted args),
      splitInto_printQuoted third]
    rfl

/-- A port is read back; a host or a password in its line only if it is plain. -/
theorem redis_words {host password port : Chars} {number : Int} {others : List Chars}
    (nonempty : host ≠ [] ∧ password ≠ []) (read : stoi port = some number)
    (first : splitInto (printWords [host, intToString number, password]) =
      host :: port :: password :: others) : Plain host ∧ Plain password := by
  have parts (word : Chars) (rest : List Chars) :
      printWords (word :: rest) = printWords [word] ++ printWords rest := by
    simp [printWords]
  have spent : (printWords [host] ++ printWords [intToString number, password]).length ≤
      weight (splitInto (printWords [host] ++ printWords [intToString number, password])) + 2 := by
    have shorter := length_of_stoi read
    rw [← parts, first, length_printWords]
    simp only [weight_cons, weight_nil]
    omega
  rw [parts] at first
  obtain ⟨plain, later⟩ := plain_of_printWords CliConfig.spaced_words (by simp [nonempty.1])
    (show _ = [host] ++ port :: password :: others from first) spent
  rw [parts, splitInto_printWords (by simp [plain_intToString]) CliConfig.spaced_words] at later
  obtain ⟨_, last⟩ := List.cons.inj later
  have filled : ∀ word ∈ [password], word ≠ [] := by simp [nonempty.2]
  have words := (plain_iff_printWords filled).mp ⟨others, last.symm⟩
  exact ⟨plain host (by simp), words password (by simp)⟩

theorem splitInto_words {words : List Chars} (plain : ∀ word ∈ words, Plain word) :
    splitInto (printWords words) = words := by
  have read := splitInto_printWords plain (.inl rfl : Spaced [])
  simpa [splitInto_nil] using read

end Words

namespace CliConfig

variable {env : CliEnv} {config : CliConfig}

theorem replay_devices_iff (ordinary : config.Ordinary env) :
    (config.deviceInputs env).foldl (addFresh DeviceNode.name) [] = config.devices ↔
      ∀ device ∈ config.devices, Plain device.driver ∧ Plain device.name ∧
        PlainQuoted device.args := by
  have nonempty (device : DeviceNode) (member : device ∈ config.devices) :
      device.driver ≠ [] ∧ device.name ≠ [] ∧ device.args ≠ [] := by
    have words := ordinary.device device member
    exact ⟨words.driver.1, words.name.1, words.args.1⟩
  constructor
  · intro rebuilt device member
    have inputs : config.deviceInputs env = config.devices.map some :=
      inputs_of_length rebuilt (by simp [deviceInputs])
    have own := List.map_inj_left.mp inputs device member
    refine (device_words (nonempty device member)).mp ?_
    unfold deviceOf at own
    split at own
    · rename_i driver name args others read
      split at own
      · obtain rfl := Option.some.inj own
        exact ⟨others, read⟩
      · cases own
    · cases own
  · intro plain
    have inputs : config.deviceInputs env = config.devices.map some := by
      refine List.map_congr_left fun device member => ?_
      obtain ⟨others, read⟩ := (device_words (nonempty device member)).mpr (plain device member)
      rw [read, deviceOf, if_pos (ordinary.device device member).installed]
    rw [inputs]
    exact foldl_addFresh_nodup ordinary.devices

theorem replay_logs_iff (ordinary : config.Ordinary env) :
    config.logInputs.foldl (addFresh id) [] = config.logConfig ↔
      ∀ log ∈ config.logConfig, Plain log.logModule ∧ Plain log.logLevel := by
  have nonempty (log : LogOutputConfig) (member : log ∈ config.logConfig) :
      ∀ word ∈ [log.logModule, log.logLevel], word ≠ [] := by
    have words := ordinary.log log member
    simp [words.1.1, words.2.1]
  constructor
  · intro rebuilt log member
    have inputs : config.logInputs = config.logConfig.map some :=
      inputs_of_length rebuilt (by simp [logInputs])
    have own := List.map_inj_left.mp inputs log member
    have read : [log.logModule, log.logLevel] <+:
        splitInto (printWords [log.logModule, log.logLevel]) := by
      unfold logOf at own
      split at own
      · rename_i others read
        obtain rfl := Option.some.inj own
        exact ⟨others, read.symm⟩
      · cases own
    have plain := (plain_iff_printWords (nonempty log member)).mp read
    exact ⟨plain _ (by simp), plain _ (by simp)⟩
  · intro plain
    have inputs : config.logInputs = config.logConfig.map some := by
      refine List.map_congr_left fun log member => ?_
      rw [splitInto_words (by simpa using plain log member), logOf]
    rw [inputs]
    exact foldl_addFresh_nodup (by simpa using ordinary.logs)

theorem replay_redis_iff (ordinary : config.Ordinary env) :
    config.redisInput.getD ⟨[], 0, []⟩ = config.redis ↔ (config.redis.host ≠ [] →
      Plain config.redis.host ∧ Plain config.redis.password) := by
  rcases ordinary.redis with empty | ⟨host, password, fits⟩
  · simp [redisInput, empty]
  have port := plain_intToString config.redis.port
  simp only [redisInput, host.1, if_false, ne_eq, not_false_eq_true, forall_true_left]
  constructor
  · intro rebuilt
    cases asked : redisOf (splitInto (printWords
        [config.redis.host, intToString config.redis.port, config.redis.password])) with
    | none =>
        rw [asked] at rebuilt
        exact absurd (congrArg RedisNode.host rebuilt).symm host.1
    | some read =>
        rw [asked] at rebuilt
        obtain rfl : read = config.redis := rebuilt
        unfold redisOf at asked
        split at asked
        · rename_i first second third others words
          obtain ⟨number, reads, same⟩ := Option.map_eq_some_iff.mp asked
          rw [← same] at words ⊢
          exact redis_words ⟨same ▸ host.1, same ▸ password.1⟩ reads words
        · cases asked
  · rintro ⟨first, third⟩
    rw [splitInto_words (by simp [first, port, third]), redisOf, stoi_intToString fits]
    rfl

section States

theorem namedStates_eq (ordinary : config.Ordinary env) : config.namedStates = config.states :=
  List.filter_eq_self.mpr fun state member => by
    simpa using (ordinary.state state member).name.1

theorem stateLines_eq {state : StateNode} (ordinary : state.Ordinary) :
    stateLines state = [("create_state", printWords [state.name])] := by
  simp [stateLines, ordinary.code]

theorem buildCalls_eq (ordinary : config.Ordinary env) : config.buildCalls env =
    config.states.map fun state => ⟨env, .createState, splitInto (printWords [state.name])⟩ := by
  have lines : config.states.flatMap stateLines =
      config.states.map fun state => ("create_state", printWords [state.name]) := by
    rw [List.map_eq_flatMap]
    exact List.flatMap_congr fun state member => stateLines_eq (ordinary.state state member)
  rw [buildCalls, namedStates_eq ordinary, lines, List.map_map]
  rfl

theorem nameFor_createState (params : List Chars) :
    StateCommand.nameFor .createState params = params.head? := by
  cases params <;> rfl

def nameInputs (config : CliConfig) : List (Option Chars) :=
  config.states.map fun state => (splitInto (printWords [state.name])).head?

theorem built_names (ordinary : config.Ordinary env) {start : CliConfig}
    (empty : start.states = []) :
    (built env config start).stateNames = config.nameInputs.foldl (addFresh id) [] := by
  have all (states : List StateNode) (target : CliConfig) :
      ((states.map fun state => (⟨env, .createState,
        splitInto (printWords [state.name])⟩ : Call)).foldl call target).stateNames =
      (states.map fun state => (splitInto (printWords [state.name])).head?).foldl
        (addFresh id) target.stateNames := by
    induction states generalizing target with
    | nil => rfl
    | cons state rest ih =>
        rw [List.map_cons, List.foldl_cons, ih, stateNames_createState, nameFor_createState]
        rfl
  rw [built, buildCalls_eq ordinary, all, stateNames, empty]
  rfl

theorem replay_names_iff (ordinary : config.Ordinary env) {start : CliConfig}
    (empty : start.states = []) :
    (built env config start).stateNames = config.stateNames ↔
      ∀ state ∈ config.states, Plain state.name := by
  have nonempty (state : StateNode) (member : state ∈ config.states) :
      ∀ word ∈ [state.name], word ≠ [] := by
    simp [(ordinary.state state member).name.1]
  rw [built_names ordinary empty]
  constructor
  · intro rebuilt state member
    have inputs : config.nameInputs = config.stateNames.map some :=
      inputs_of_length rebuilt (by simp [nameInputs, stateNames])
    rw [nameInputs, stateNames, List.map_map] at inputs
    have own := List.map_inj_left.mp inputs state member
    obtain ⟨others, read⟩ := List.head?_eq_some_iff.mp own
    exact (plain_iff_printWords (nonempty state member)).mp ⟨others, read.symm⟩ _ (by simp)
  · intro plain
    have inputs : config.nameInputs = config.stateNames.map some := by
      rw [nameInputs, stateNames, List.map_map]
      refine List.map_congr_left fun state member => ?_
      rw [splitInto_words (by simpa using plain state member)]
      rfl
    rw [inputs]
    exact foldl_addFresh_nodup (by simpa using ordinary.closed.names)

theorem built_getState (ordinary : config.Ordinary env) {start : CliConfig} {name : Chars}
    (empty : start.states = []) (listed : name ∈ (built env config start).stateNames) :
    (built env config start).getState name = some (makeNewState name) := by
  have unborn : name ∉ start.stateNames := by simp [stateNames, empty]
  rcases builds_cases buildCalls_builds name with (old : name ∈ start.stateNames) |
    ⟨before, one, after, split, creates, first⟩ | absent
  · exact absurd old unborn
  · rw [built, builds_created buildCalls_builds split creates first unborn]
    have silent : ∀ other ∈ after, other.command = .createState := by
      intro other member
      have printed : other ∈ config.buildCalls env := by simp [split, member]
      rw [buildCalls_eq ordinary] at printed
      obtain ⟨state, _, rfl⟩ := List.mem_map.mp printed
      rfl
    have fixed (calls : List Call) (silent : ∀ other ∈ calls, other.command = .createState)
        (state : StateNode) : onNodes [] calls state = state := by
      induction calls with
      | nil => rfl
      | cons first rest ih =>
          have same : first.onNode [] state = state := by
            obtain ⟨env, command, params⟩ := first
            obtain rfl := silent _ List.mem_cons_self
            rfl
          rw [onNodes, List.foldl_cons, same]
          exact ih fun other member => silent other (List.mem_cons_of_mem _ member)
    rw [fixed after silent]
  · exact absurd listed absent

end States

section Links

variable {names : List Chars} {state source : StateNode}

def linksOf (env : CliEnv) (source : StateNode) : List Call :=
  (transLines source).map (BdrLine.call env)

theorem linksOf_eq (env : CliEnv) (source : StateNode) : linksOf env source =
    (if source.next = [] then [] else
      [⟨env, .setNext, splitInto (printWords [source.name, source.next])⟩]) ++
    source.events.map fun event => ⟨env, .addEvent,
      splitInto (printWords [source.name, event.trigger.getD [], event.next.getD []])⟩ := by
  rw [linksOf, transLines, List.map_append, List.map_map]
  congr 1
  split <;> rfl

theorem onNodes_append (first second : List Call) (state : StateNode) :
    onNodes names (first ++ second) state = onNodes names second (onNodes names first state) :=
  List.foldl_append

theorem splitInto_owner {owner : Chars} (plain : Plain owner) (words : List Chars) :
    splitInto (printWords (owner :: words)) = owner :: splitInto (printWords words) := by
  have parts : printWords (owner :: words) = printWords [owner] ++ printWords words := by
    simp [printWords]
  rw [parts, splitInto_printWords (by simpa using plain) spaced_words]
  rfl

theorem onNodes_addEvents (events : List EventNode) (params : EventNode → List Chars)
    (state : StateNode) :
    onNodes names (events.map fun event => ⟨env, .addEvent, params event⟩) state =
      { state with
        events := (events.map fun event => StateCommand.eventFor names state.name .addEvent
          (params event)).foldl (addFresh EventNode.key) state.events } := by
  induction events generalizing state with
  | nil => rfl
  | cons event rest ih =>
      rw [List.map_cons, onNodes, List.foldl_cons, ← onNodes, onNode_addEvent, ih]
      rfl

theorem eventFor_other {owner name : Chars} (other : owner ≠ name) (rest : List Chars) :
    StateCommand.eventFor names name .addEvent (owner :: rest) = none := by
  match rest with
  | [] | [_] => rfl
  | trigger :: target :: others => simp [StateCommand.eventFor, other]

theorem nextFor_other {owner name : Chars} (other : owner ≠ name) (rest : List Chars) :
    StateCommand.nextFor names name .setNext (owner :: rest) = none := by
  match rest with
  | [] => rfl
  | target :: others => simp [StateCommand.nextFor, other]

theorem linksOf_other (plain : Plain source.name) (other : source.name ≠ state.name) :
    onNodes names (linksOf env source) state = state := by
  have rejected (words : EventNode → List Chars) (events : List EventNode) :
      (events.map fun event => StateCommand.eventFor names state.name .addEvent
        (source.name :: words event)).foldl (addFresh EventNode.key) state.events =
          state.events := by
    refine foldl_of_settled fun input member => ?_
    obtain ⟨event, _, rfl⟩ := List.mem_map.mp member
    rw [eventFor_other other]
    exact fun item same => by (cases same)
  rw [linksOf_eq, onNodes_append]
  simp only [splitInto_owner plain]
  split
  · rw [onNodes_addEvents]
    simp only [onNodes, List.foldl_nil, rejected]
  · have first : onNodes names [⟨env, .setNext,
        source.name :: splitInto (printWords [source.next])⟩] state = state := by
      rw [onNodes, List.foldl_cons, List.foldl_nil, onNode_setNext, nextFor_other other]
      rfl
    rw [first, onNodes_addEvents]
    simp only [rejected]

theorem links_others {sources : List StateNode}
    (others : ∀ source ∈ sources, Plain source.name ∧ source.name ≠ state.name) :
    onNodes names (sources.flatMap (linksOf env)) state = state := by
  induction sources with
  | nil => rfl
  | cons source rest ih =>
      obtain ⟨plain, other⟩ := others source (by simp)
      rw [List.flatMap_cons, onNodes_append, linksOf_other plain other]
      exact ih fun source member => others source (List.mem_cons_of_mem _ member)

theorem links_own {sources : List StateNode} (nodup : (sources.map StateNode.name).Nodup)
    (plain : ∀ source ∈ sources, Plain source.name) (member : source ∈ sources)
    (own : source.name = state.name) :
    onNodes names (sources.flatMap (linksOf env)) state =
      onNodes names (linksOf env source) state := by
  obtain ⟨before, after, rfl⟩ := List.append_of_mem member
  rw [List.map_append, List.map_cons, List.nodup_append, List.nodup_cons] at nodup
  obtain ⟨_, ⟨behind, _⟩, front⟩ := nodup
  have first : onNodes names (before.flatMap (linksOf env)) state = state := by
    refine links_others fun other listed => ⟨plain other (by simp [listed]), fun same => ?_⟩
    exact front other.name (List.mem_map_of_mem listed) source.name (by simp) (same.trans own.symm)
  rw [List.flatMap_append, List.flatMap_cons, onNodes_append, onNodes_append, first]
  refine links_others fun other listed => ⟨plain other (by simp [listed]), fun same => ?_⟩
  rw [onNodes_name, ← own] at same
  exact behind (same ▸ List.mem_map_of_mem listed)

theorem linkCalls_eq (ordinary : config.Ordinary env) :
    config.linkCalls env = config.states.flatMap (linksOf env) := by
  rw [linkCalls, namedStates_eq ordinary, List.map_flatMap]
  rfl

end Links

section Rebuilt

variable {source : StateNode}

def eventInputs (config : CliConfig) (source : StateNode) : List (Option EventNode) :=
  source.events.map fun event => StateCommand.eventFor config.stateNames source.name .addEvent
    (splitInto (printWords [source.name, event.trigger.getD [], event.next.getD []]))

theorem plain_of_mem (plain : ∀ state ∈ config.states, Plain state.name) {name : Chars}
    (listed : name ∈ config.stateNames) : Plain name := by
  obtain ⟨state, member, rfl⟩ := List.mem_map.mp listed
  exact plain state member

theorem links_fresh (ordinary : config.Ordinary env)
    (plain : ∀ state ∈ config.states, Plain state.name) (member : source ∈ config.states) :
    onNodes config.stateNames (config.linkCalls env) (makeNewState source.name) =
      { makeNewState source.name with
        next := source.next
        events := (config.eventInputs source).foldl (addFresh EventNode.key) [] } := by
  have own : source.name = (makeNewState source.name).name := rfl
  rw [linkCalls_eq ordinary, links_own ordinary.closed.names plain member own, linksOf_eq,
    onNodes_append]
  split
  · rename_i empty
    rw [onNodes_addEvents, empty]
    rfl
  · rename_i named
    have listed := (ordinary.closed.state source member).next named
    have words : splitInto (printWords [source.name, source.next]) =
        [source.name, source.next] :=
      splitInto_words (by simp [plain source member, plain_of_mem plain listed])
    have first : onNodes config.stateNames [⟨env, .setNext, [source.name, source.next]⟩]
        (makeNewState source.name) = { makeNewState source.name with next := source.next } := by
      rw [onNodes, List.foldl_cons, List.foldl_nil, onNode_setNext]
      simp [StateCommand.nextFor, makeNewState, listed]
    rw [words, first, onNodes_addEvents]
    rfl

theorem replay_events_iff (ordinary : config.Ordinary env)
    (plain : ∀ state ∈ config.states, Plain state.name) (member : source ∈ config.states) :
    (config.eventInputs source).foldl (addFresh EventNode.key) [] = source.events ↔
      ∀ event ∈ source.events, Plain (event.trigger.getD []) := by
  have parts (event : EventNode) (listed : event ∈ source.events) : ∃ trigger target,
      event = ⟨some trigger, some target⟩ ∧ trigger ≠ [] ∧ target ∈ config.stateNames := by
    obtain ⟨trigger, target, rfl, word⟩ := (ordinary.state source member).event event listed
    obtain ⟨name, known, same⟩ := (ordinary.closed.state source member).target _ listed
    obtain rfl := Option.some.inj same
    exact ⟨trigger, _, rfl, word.1, known⟩
  constructor
  · intro rebuilt event listed
    have inputs : config.eventInputs source = source.events.map some :=
      inputs_of_length rebuilt (by simp [eventInputs])
    have own := List.map_inj_left.mp inputs event listed
    obtain ⟨trigger, target, rfl, nonempty, known⟩ := parts event listed
    have filled : ∀ word ∈ [source.name, trigger, target], word ≠ [] := by
      simp [(plain source member).1, nonempty, (plain_of_mem plain known).1]
    have read : [source.name, trigger, target] <+:
        splitInto (printWords [source.name, trigger, target]) := by
      simp only [Option.getD_some] at own
      unfold StateCommand.eventFor at own
      split at own
      · rename_i owner first second others _ words
        split at own
        · rename_i accepted
          simp only [Option.some.injEq, EventNode.mk.injEq] at own
          obtain ⟨rfl, rfl⟩ := own
          rw [words, accepted.1]
          exact ⟨others, rfl⟩
        · cases own
      · cases own
    exact (plain_iff_printWords filled).mp read trigger (by simp)
  · intro triggers
    have inputs : config.eventInputs source = source.events.map some := by
      refine List.map_congr_left fun event listed => ?_
      obtain ⟨trigger, target, rfl, _, known⟩ := parts event listed
      have words : splitInto (printWords [source.name, trigger, target]) =
          [source.name, trigger, target] := splitInto_words (by
        simpa [plain source member, plain_of_mem plain known] using triggers _ listed)
      simp [words, StateCommand.eventFor, known]
    rw [inputs]
    refine foldl_addFresh_nodup ?_
    have keys : (source.events.map EventNode.trigger).Nodup :=
      (ordinary.closed.state source member).triggers
    have same : source.events.map EventNode.trigger =
        (source.events.map EventNode.key).map some := by
      rw [List.map_map]
      refine List.map_congr_left fun event listed => ?_
      obtain ⟨trigger, target, rfl, _⟩ := parts event listed
      rfl
    rw [same] at keys
    exact List.Nodup.of_map _ keys

theorem find_settings {first second : List StateNode} (name : Chars)
    (same : first.map StateNode.settings = second.map StateNode.settings) :
    (first.find? fun state => state.name = name).map StateNode.settings =
      (second.find? fun state => state.name = name).map StateNode.settings := by
  have names (states : List StateNode) :
      (states.find? fun state => state.name = name).map StateNode.settings =
        (states.map StateNode.settings).find? fun settings => settings.1 = name := by
    rw [List.find?_map]
    rfl
  rw [names, names, same]

theorem states_ext {first second : List StateNode}
    (names : first.map StateNode.name = second.map StateNode.name)
    (nodup : (first.map StateNode.name).Nodup)
    (lookups : ∀ name ∈ first.map StateNode.name,
      (first.find? fun state => state.name = name) =
        second.find? fun state => state.name = name) : first = second := by
  induction first generalizing second with
  | nil => exact (List.map_eq_nil_iff.mp names.symm).symm
  | cons one before ih =>
      cases second with
      | nil => cases names
      | cons two after =>
          simp only [List.map_cons, List.cons.injEq] at names
          simp only [List.map_cons, List.nodup_cons] at nodup
          have heads : one = two := by
            have found := lookups one.name (by simp)
            simpa [names.1] using found
          subst two
          refine congrArg _ (ih names.2 nodup.2 fun name listed => ?_)
          have other : one.name ≠ name := by
            rintro rfl
            exact nodup.1 listed
          simpa [List.find?_cons, other] using lookups name (by simp [listed])

theorem getState_of_mem (closed : config.Closed) (member : source ∈ config.states) :
    config.getState source.name = some source := by
  have nodup := closed.names
  obtain ⟨before, after, split⟩ := List.append_of_mem member
  rw [stateNames, split, List.map_append, List.map_cons, List.nodup_append] at nodup
  have front : ∀ other ∈ before, other.name ≠ source.name := fun other listed same =>
    nodup.2.2 other.name (List.mem_map_of_mem listed) source.name (by simp) same
  rw [getState, split, List.find?_append]
  have none : (before.find? fun state => state.name = source.name) = none := by
    rw [List.find?_eq_none]
    exact fun other listed => by simpa using front other listed
  simp [none]

theorem replay_getState (ordinary : config.Ordinary env) {start : CliConfig}
    (empty : start.states = [])
    (plain : ∀ state ∈ config.states, Plain state.name) (member : source ∈ config.states) :
    (pass env config start).getState source.name = some { makeNewState source.name with
      next := source.next
      events := (config.eventInputs source).foldl (addFresh EventNode.key) [] } := by
  have names := (replay_names_iff ordinary empty).mpr plain
  have listed : source.name ∈ (built env config start).stateNames := by
    rw [names]
    exact List.mem_map_of_mem member
  rw [pass_getState, built_getState ordinary empty listed, names, Option.map_some,
    links_fresh ordinary plain member]

theorem replay_initState (ordinary : config.Ordinary env) {start : CliConfig}
    (empty : start.states = []) (init : start.initState = [])
    (plain : ∀ state ∈ config.states, Plain state.name) :
    (pass env config start).initState = config.initState := by
  have names := (replay_names_iff ordinary empty).mpr plain
  rw [pass_eq]
  by_cases unset : config.initState = []
  · simp [initOf, unset, init]
  · have listed := ordinary.closed.init unset
    have words : splitInto (printWords [config.initState]) = [config.initState] :=
      splitInto_words (by simp [plain_of_mem plain listed])
    simp [initOf, unset, words, names, listed]

theorem states_of_plain (ordinary : config.Ordinary env) {start : CliConfig}
    (empty : start.states = []) (plain : config.PlainlyPrinted) :
    (pass env config start).states = config.states := by
  have names : (pass env config start).stateNames = config.stateNames := by
    rw [pass_names]
    exact (replay_names_iff ordinary empty).mpr plain.state
  have nodup : (pass env config start).stateNames.Nodup := by
    rw [names]
    exact ordinary.closed.names
  refine states_ext names nodup fun name listed => ?_
  have known : name ∈ config.stateNames := names ▸ listed
  obtain ⟨source, member, rfl⟩ := List.mem_map.mp known
  have events := (replay_events_iff ordinary plain.state member).mpr (plain.trigger source member)
  have rebuilt := replay_getState ordinary empty plain.state member
  have same : ({ makeNewState source.name with
      next := source.next
      events := (config.eventInputs source).foldl (addFresh EventNode.key) [] } : StateNode) =
        source := by
    refine node_ext rfl (fun type => ?_) rfl events
    rw [(ordinary.state source member).code type]
    cases type <;> rfl
  exact (rebuilt.trans (congrArg some same)).trans (getState_of_mem ordinary.closed member).symm

/-- A saved text replays exactly, on a cleared configuration, exactly if every printed field
is read back from where it stands without escaping. -/
theorem saved_replays_iff (env : CliEnv) (config : CliConfig)
    (fromCleared : FromCleared env config) :
    (cleared.importText env (config.saved env)).SameSettings config ↔ config.PlainlyPrinted := by
  have ordinary := fromCleared.ordinary
  obtain ⟨start, begins⟩ : ∃ start : CliConfig, { cleared with
    devices := (config.deviceInputs env).foldl (addFresh DeviceNode.name) cleared.devices } =
      start := ⟨_, rfl⟩
  have empty : start.states = [] := by rw [← begins]; rfl
  have init : start.initState = [] := by rw [← begins]; rfl
  have devices : (pass env config start).devices =
      (config.deviceInputs env).foldl (addFresh DeviceNode.name) [] := by
    rw [← begins]
    exact (replay_frame config env _).1
  rw [importText_eq ordinary.printable, begins]
  constructor
  · intro same
    have names : (pass env config start).stateNames = config.stateNames := by
      have both := congrArg (List.map Prod.fst) same.states
      rw [List.map_map, List.map_map] at both
      exact both
    have built := (pass_names env config start).symm.trans names
    have plain := (replay_names_iff ordinary empty).mp built
    refine ⟨?_, plain, fun source member => ?_, (replay_redis_iff ordinary).mp same.redis,
      (replay_logs_iff ordinary).mp same.logs⟩
    · exact (replay_devices_iff ordinary).mp (devices.symm.trans same.devices)
    · have rebuilt := replay_getState ordinary empty plain member
      have kept := getState_of_mem ordinary.closed member
      have found : ((pass env config start).getState source.name).map StateNode.settings =
          (config.getState source.name).map StateNode.settings :=
        find_settings source.name same.states
      rw [rebuilt, kept, Option.map_some, Option.map_some, Option.some.injEq] at found
      exact (replay_events_iff ordinary plain member).mp (congrArg (fun parts => parts.2.2) found)
  · intro plain
    refine ⟨?_, ?_, ?_, (replay_redis_iff ordinary).mpr plain.redis,
      (replay_logs_iff ordinary).mpr plain.log⟩
    · exact devices.trans ((replay_devices_iff ordinary).mpr plain.device)
    · exact congrArg _ (states_of_plain ordinary empty plain)
    · exact replay_initState ordinary empty init plain.state

end Rebuilt

def smallSite : List (ConfigCommand × List Chars) :=
  [(.addDevice, ["scale".toList, "left".toList, "COM1 9600".toList]),
    (.createState, ["idle".toList]),
    (.addEvent, ["idle".toList, "go".toList, "idle".toList])]

def CliEnv.withScale : CliEnv := ⟨["scale".toList], fun _ => [], fun _ code => code⟩

theorem saved_replays_iff_smallSite :
    let config := smallSite.foldl (runConfig CliEnv.withScale) cleared
    (cleared.importText CliEnv.withScale (config.saved CliEnv.withScale)).SameSettings config :=
  (saved_replays_iff CliEnv.withScale _ ⟨smallSite, fun one member => delivered_iff.mpr (by
    revert one
    decide), rfl⟩).mpr ⟨by decide, by decide, by decide, by decide, by decide⟩

theorem saved_replays_not_blank :
    Delivered ["a b".toList] ∧
      let config := runConfig .silent cleared (.createState, ["a b".toList])
      ¬(cleared.importText .silent (config.saved .silent)).SameSettings config := by
  refine ⟨delivered_iff.mpr (by decide), ?_⟩
  intro config same
  have names := congrArg (List.map Prod.fst) same.states
  have saved : config.states = [makeNewState "a b".toList] := by decide
  have replayed : (cleared.importText .silent (config.saved .silent)).states =
      [makeNewState "a".toList] := by decide
  rw [saved, replayed] at names
  revert names
  decide

end CliConfig

end AutoDrop
