import AutoDrop.CliSession

/-!
What a file session makes of a saved text: in each menu the handler of every printed line
runs on the words that the splitter reads out of its parameters.
-/

namespace AutoDrop

open SplitText

/-- No field that is printed as a parameter holds a newline. -/
structure CliConfig.Printable (config : CliConfig) : Prop where
  device : ∀ device ∈ config.devices,
    '\n' ∉ device.name ∧ '\n' ∉ device.driver ∧ '\n' ∉ device.args
  state : ∀ state ∈ config.states, '\n' ∉ state.name ∧ '\n' ∉ state.next
  event : ∀ state ∈ config.states, ∀ event ∈ state.events,
    '\n' ∉ event.trigger.getD [] ∧ '\n' ∉ event.next.getD []
  init : '\n' ∉ config.initState
  redis : '\n' ∉ config.redis.host ∧ '\n' ∉ config.redis.password
  log : ∀ log ∈ config.logConfig, '\n' ∉ log.logModule ∧ '\n' ∉ log.logLevel

def replayLine (env : CliEnv) (menu : Submenu) (config : CliConfig) (line : BdrLine) : CliConfig :=
  match menu.handler env line.1.toList with
  | some run => config.after (run config (splitInto line.2))
  | none => config

def replayMenu (env : CliEnv) (menu : Submenu) (config : CliConfig) (lines : List BdrLine) :
    CliConfig :=
  lines.foldl (replayLine env menu) config

structure BdrLine.Runs (env : CliEnv) (menu : Submenu) (line : BdrLine) : Prop where
  single : '\n' ∉ line.text
  plain : Plain line.1.toList
  spaced : Spaced line.2
  handled : ∃ run, menu.handler env line.1.toList = some run

section Handlers

theorem commands_nodup (env : CliEnv) (menu : Submenu) :
    ((menu.commands env).map Prod.fst).Nodup := by
  cases menu <;> simp [Submenu.commands]

/-- The names of a menu's commands differ, so each of them is found. -/
theorem handler_of_listed {env : CliEnv} {menu : Submenu} {name : String} {run : CliHandler}
    (listed : (name, run) ∈ menu.commands env) : menu.handler env name.toList = some run := by
  have nodup := commands_nodup env menu
  obtain ⟨before, after, split⟩ := List.append_of_mem listed
  rw [split, List.map_append, List.map_cons, List.nodup_append] at nodup
  have front : ∀ other ∈ before, other.1 ≠ name := fun other member same =>
    nodup.2.2 other.1 (List.mem_map_of_mem member) name (by simp) same
  have skipped : (before.find? fun command => command.1.toList = name.toList) = none := by
    rw [List.find?_eq_none]
    intro other member same
    exact front other member (String.toList_inj.mp (by simpa using same))
  simp [Submenu.handler, split, List.find?_append, skipped]

variable (env : CliEnv)

theorem handler_addDevice :
    Submenu.handler env .device "add_device".toList = some (CliConfig.addDevice env) :=
  handler_of_listed (by simp [Submenu.commands])

theorem handler_createState :
    Submenu.handler env .stateMachine "create_state".toList = some CliConfig.createState :=
  handler_of_listed (by simp [Submenu.commands])

theorem handler_inputAction :
    Submenu.handler env .stateMachine "input_action".toList =
      some (CliConfig.inputAction env) :=
  handler_of_listed (by simp [Submenu.commands])

theorem handler_setNext :
    Submenu.handler env .stateMachine "set_next".toList = some CliConfig.setNext :=
  handler_of_listed (by simp [Submenu.commands])

theorem handler_addEvent :
    Submenu.handler env .stateMachine "add_event".toList = some CliConfig.addEvent :=
  handler_of_listed (by simp [Submenu.commands])

theorem handler_setInit :
    Submenu.handler env .stateMachine "set_init".toList = some CliConfig.setInit :=
  handler_of_listed (by simp [Submenu.commands])

theorem handler_enableLog :
    Submenu.handler env .runtime "enable_log".toList = some CliConfig.enableLog :=
  handler_of_listed (by simp [Submenu.commands])

theorem handler_restart : Submenu.handler env .runtime "restart".toList = some leavesConfig :=
  handler_of_listed (by simp [Submenu.commands])

theorem handler_redisParams :
    Submenu.handler env .redis "params".toList = some CliConfig.redisParams :=
  handler_of_listed (by simp [Submenu.commands])

theorem handler_of_unlisted {menu : Submenu} {name : String}
    (unlisted : name ∉ (menu.commands env).map Prod.fst) :
    menu.handler env name.toList = none := by
  rw [Submenu.handler, Option.map_eq_none_iff, List.find?_eq_none]
  intro command member same
  have named : command.1 = name := String.toList_inj.mp (by simpa using same)
  exact unlisted (named ▸ List.mem_map_of_mem member)

theorem handler_ad (menu : Submenu) : menu.handler env "ad".toList = none :=
  handler_of_unlisted env (by cases menu <;> simp [Submenu.commands])

theorem handler_help (menu : Submenu) : menu.handler env "help".toList = none :=
  handler_of_unlisted env (by cases menu <;> simp [Submenu.commands])

theorem handler_exit (menu : Submenu) : menu.handler env "exit".toList = none :=
  handler_of_unlisted env (by cases menu <;> simp [Submenu.commands])

end Handlers

theorem not_global {env : CliEnv} {menu : Submenu} {name : Chars} {run : CliHandler}
    (found : menu.handler env name = some run) :
    name ≠ "help".toList ∧ name ≠ "exit".toList := by
  constructor
  · rintro rfl
    rw [handler_help] at found
    cases found
  · rintro rfl
    rw [handler_exit] at found
    cases found

namespace CliSession

theorem feed_line {env : CliEnv} {menu : Submenu} {line : BdrLine} (runs : line.Runs env menu)
    (session : CliSession) (inside : session.current = some menu) :
    feed env session (' ' :: ' ' :: line.text) =
      { session with config := replayLine env menu session.config line } := by
  obtain ⟨run, found⟩ := runs.handled
  have words : splitInto (' ' :: ' ' :: line.text) = line.1.toList :: splitInto line.2 := by
    rw [splitInto_blank rfl, splitInto_blank rfl]
    exact splitInto_plain runs.plain runs.spaced.ends
  have apart := not_global found
  simp only [feed, words, List.cons.injEq, List.cons_ne_nil, apart.1, apart.2, false_and,
    or_self, if_false, scanCmds, inside, execIn, found, Option.getD_some, replayLine]

theorem feed_menu (env : CliEnv) (config : CliConfig) (saved : Chars) (menu : Submenu) :
    feed env ⟨config, none, false, saved⟩ menu.name = ⟨config, some menu, false, saved⟩ := by
  cases menu <;> rfl

theorem feed_ad (env : CliEnv) (config : CliConfig) (saved : Chars) (menu : Submenu) :
    feed env ⟨config, some menu, false, saved⟩ "ad".toList = ⟨config, none, false, saved⟩ := by
  have words : splitInto "ad".toList = ["ad".toList] := rfl
  simp only [feed, words, scanCmds, execIn, handler_ad, execParent]
  simp

theorem feedLines_menu {env : CliEnv} {menu : Submenu} {lines : List BdrLine}
    (runs : ∀ line ∈ lines, line.Runs env menu) (config : CliConfig) (saved : Chars) :
    feedLines env ⟨config, some menu, false, saved⟩
      (lines.map fun line => ' ' :: ' ' :: line.text) =
        ⟨replayMenu env menu config lines, some menu, false, saved⟩ := by
  induction lines generalizing config with
  | nil => rfl
  | cons line rest ih =>
      have step := feed_line (runs line (by simp)) ⟨config, some menu, false, saved⟩ rfl
      have later := ih (fun other member => runs other (List.mem_cons_of_mem _ member))
        (replayLine env menu config line)
      simp only [feedLines, List.map_cons, List.foldl_cons, Bool.false_eq_true, if_false] at later ⊢
      rw [step, later]
      rfl

theorem feedLines_append (env : CliEnv) (session : CliSession) (first second : List Chars) :
    feedLines env session (first ++ second) =
      feedLines env (feedLines env session first) second := by
  simp [feedLines]

theorem execMenu_single (env : CliEnv) (session : CliSession) (menu : Submenu) (name : Chars) :
    execMenu env session menu [name] =
      if name = menu.name then some { session with current := some menu } else none := rfl

theorem execRoot_save (env : CliEnv) (session : CliSession) :
    execRoot env session ["save".toList] =
      some { session with savedConfig := session.config.makeBdrString } := by
  have other (menu : Submenu) : execMenu env session menu ["save".toList] = none := by
    have apart : "save".toList ≠ menu.name := by
      cases menu <;> decide
    rw [execMenu_single, if_neg apart]
  simp only [execRoot, other, Submenu.all, List.findSome?_cons, List.findSome?_nil]
  simp

def menuLines (menu : Submenu) (lines : List BdrLine) : List Chars :=
  menu.name :: ((lines.map fun line => ' ' :: ' ' :: line.text) ++ ["ad".toList])

theorem feedLines_menuLines {env : CliEnv} {menu : Submenu} {lines : List BdrLine}
    (runs : ∀ line ∈ lines, line.Runs env menu) (config : CliConfig) (saved : Chars) :
    feedLines env ⟨config, none, false, saved⟩ (menuLines menu lines) =
      ⟨replayMenu env menu config lines, none, false, saved⟩ := by
  have enters : feedLines env ⟨config, none, false, saved⟩ [menu.name] =
      ⟨config, some menu, false, saved⟩ := feed_menu env config saved menu
  have leaves : feedLines env ⟨replayMenu env menu config lines, some menu, false, saved⟩
      ["ad".toList] = ⟨replayMenu env menu config lines, none, false, saved⟩ :=
    feed_ad env _ saved menu
  rw [menuLines, ← List.singleton_append, feedLines_append, enters, feedLines_append,
    feedLines_menu runs, leaves]

end CliSession

section Lines

theorem getlines_newline (rest : Chars) :
    getlines ('\n' :: rest) = ([] :: (getlines rest).1, (getlines rest).2) := by
  simp [getlines]

theorem getlines_append {line : Chars} (single : '\n' ∉ line) (rest : Chars) :
    getlines (line ++ '\n' :: rest) = (line :: (getlines rest).1, (getlines rest).2) := by
  induction line with
  | nil => exact getlines_newline rest
  | cons c line ih =>
      simp only [List.mem_cons, not_or] at single
      rw [List.cons_append, getlines, if_neg (Ne.symm single.1), ih single.2]

theorem getlines_endlines {lines : List Chars} (single : ∀ line ∈ lines, '\n' ∉ line) :
    getlines (endlines lines) = (lines, []) := by
  induction lines with
  | nil => rfl
  | cons line rest ih =>
      have step : endlines (line :: rest) = line ++ '\n' :: endlines rest := by
        simp [endlines]
      rw [step, getlines_append (single line (by simp)),
        ih fun other member => single other (List.mem_cons_of_mem _ member)]

theorem endlines_append (first second : List Chars) :
    endlines (first ++ second) = endlines first ++ endlines second := by
  simp [endlines]

theorem insertSpaces_endlines {lines : List Chars} (single : ∀ line ∈ lines, '\n' ∉ line) :
    insertSpaces (endlines lines) = endlines (lines.map fun line => ' ' :: ' ' :: line) := by
  rw [insertSpaces, getlines_endlines single, if_pos rfl, List.append_nil]

theorem not_mem_printWords {words : List Chars} (single : ∀ word ∈ words, '\n' ∉ word) :
    '\n' ∉ printWords words := by
  intro newline
  simp only [printWords, List.mem_flatMap, List.mem_cons] at newline
  obtain ⟨word, member, blank | newline⟩ := newline
  · simp at blank
  · exact single word member newline

theorem not_mem_replace (code : Chars) : '\n' ∉ replaceNewlinesAndQuotes code := by
  intro newline
  simp only [replaceNewlinesAndQuotes, List.mem_flatMap] at newline
  obtain ⟨c, _, newline⟩ := newline
  split at newline
  · simp at newline
  · split at newline
    · simp at newline
    · exact absurd (List.mem_singleton.mp newline).symm (by assumption)

end Lines

namespace CliConfig

variable {env : CliEnv} {config : CliConfig} {line : BdrLine}

theorem spaced_words {words : List Chars} : Spaced (printWords words) := by
  have spaced : Spaced (printWords words ++ []) := spaced_printWords (.inl rfl)
  simpa using spaced

theorem runs_device (printable : config.Printable) (member : line ∈ config.bdrLines .device) :
    line.Runs env .device := by
  simp only [bdrLines, List.mem_map] at member
  obtain ⟨device, member, rfl⟩ := member
  have single := printable.device device member
  refine ⟨?_, (by decide : Plain "add_device".toList), spaced_printWords (spaced_printQuoted _),
      _, handler_addDevice env⟩
  have words : '\n' ∉ printWords [device.driver, device.name] :=
    not_mem_printWords (by simp [single])
  simp [BdrLine.text, printQuoted, words, single]

theorem runs_stateLines {state : StateNode} (single : '\n' ∉ state.name)
    (member : line ∈ stateLines state) : line.Runs env .stateMachine := by
  simp only [stateLines, List.mem_cons, List.mem_flatMap] at member
  rcases member with rfl | ⟨type, _, member⟩
  · refine ⟨?_, (by decide : Plain "create_state".toList), spaced_words,
      _, handler_createState env⟩
    have words : '\n' ∉ printWords [state.name] := not_mem_printWords (by simp [single])
    simp [BdrLine.text, words]
  · split at member
    · cases member
    · obtain rfl := List.mem_singleton.mp member
      refine ⟨?_, (by decide : Plain "input_action".toList), spaced_printWords (.inr ⟨_, rfl⟩),
      _, handler_inputAction env⟩
      have word : '\n' ∉ type.word := by cases type <;> decide
      have words : '\n' ∉ printWords [state.name, type.word] :=
        not_mem_printWords (by simp [single, word])
      simp [BdrLine.text, words, not_mem_replace]

theorem runs_transLines (printable : config.Printable) {state : StateNode}
    (listed : state ∈ config.states) (member : line ∈ transLines state) :
    line.Runs env .stateMachine := by
  have single := printable.state state listed
  simp only [transLines, List.mem_append, List.mem_map] at member
  rcases member with member | ⟨event, member, rfl⟩
  · split at member
    · cases member
    · obtain rfl := List.mem_singleton.mp member
      refine ⟨?_, (by decide : Plain "set_next".toList), spaced_words,
      _, handler_setNext env⟩
      have words : '\n' ∉ printWords [state.name, state.next] :=
        not_mem_printWords (by simp [single])
      simp [BdrLine.text, words]
  · have fields := printable.event state listed event member
    refine ⟨?_, (by decide : Plain "add_event".toList), spaced_words,
      _, handler_addEvent env⟩
    have words : '\n' ∉ printWords [state.name, event.trigger.getD [], event.next.getD []] :=
      not_mem_printWords (by simp [single, fields])
    simp [BdrLine.text, words]

theorem runs_stateMachine (printable : config.Printable)
    (member : line ∈ config.bdrLines .stateMachine) : line.Runs env .stateMachine := by
  simp only [bdrLines, List.mem_append, List.mem_flatMap, List.mem_filter] at member
  rcases member with (⟨state, ⟨listed, _⟩, member⟩ | ⟨state, ⟨listed, _⟩, member⟩) | member
  · exact runs_stateLines (printable.state state listed).1 member
  · exact runs_transLines printable listed member
  · split at member
    · cases member
    · obtain rfl := List.mem_singleton.mp member
      refine ⟨?_, (by decide : Plain "set_init".toList), spaced_words,
      _, handler_setInit env⟩
      have words : '\n' ∉ printWords [config.initState] :=
        not_mem_printWords (by simp [printable.init])
      simp [BdrLine.text, words]

theorem runs_runtime (printable : config.Printable) (member : line ∈ config.bdrLines .runtime) :
    line.Runs env .runtime := by
  simp only [bdrLines, List.mem_append, List.mem_map, List.mem_singleton] at member
  rcases member with ⟨log, member, rfl⟩ | rfl
  · have single := printable.log log member
    refine ⟨?_, (by decide : Plain "enable_log".toList), spaced_words,
      _, handler_enableLog env⟩
    have words : '\n' ∉ printWords [log.logModule, log.logLevel] :=
      not_mem_printWords (by simp [single])
    simp [BdrLine.text, words]
  · exact ⟨(by decide : '\n' ∉ "restart".toList), (by decide : Plain "restart".toList), .inl rfl,
      _, handler_restart env⟩

theorem not_mem_intToString (number : Int) : '\n' ∉ intToString number := by
  have digits (magnitude : Nat) : '\n' ∉ Nat.toDigits 10 magnitude := by
    intro newline
    have digit := Nat.isDigit_of_mem_toDigits (by decide) (by decide) newline
    simp [Char.isDigit] at digit
  cases number with
  | ofNat magnitude => exact digits magnitude
  | negSucc magnitude => simp [intToString, digits]

theorem runs_redis (printable : config.Printable) (member : line ∈ config.bdrLines .redis) :
    line.Runs env .redis := by
  simp only [bdrLines] at member
  split at member
  · cases member
  · obtain rfl := List.mem_singleton.mp member
    refine ⟨?_, (by decide : Plain "params".toList), spaced_words,
      _, handler_redisParams env⟩
    have words : '\n' ∉ printWords [config.redis.host, intToString config.redis.port,
        config.redis.password] :=
      not_mem_printWords (by simp [printable.redis, not_mem_intToString])
    simp [BdrLine.text, words]

theorem runs_bdrLines (printable : config.Printable) (menu : Submenu)
    (member : line ∈ config.bdrLines menu) : line.Runs env menu := by
  cases menu with
  | device => exact runs_device printable member
  | stateMachine => exact runs_stateMachine printable member
  | runtime => exact runs_runtime printable member
  | redis => exact runs_redis printable member

theorem saved_eq (env : CliEnv) (config : CliConfig) :
    config.saved env = config.makeBdrString := by
  have words : splitInto "save".toList = ["save".toList] := rfl
  rw [saved, CliSession.feed]
  simp only [words]
  rw [if_neg (by simp), if_neg (by simp), CliSession.scanCmds, CliSession.enter]
  simp only [CliSession.execRoot_save, Option.getD_some]

theorem makeBdrString_eq (printable : config.Printable) :
    config.makeBdrString = endlines (Submenu.all.flatMap fun menu =>
      CliSession.menuLines menu (config.bdrLines menu)) := by
  have part (menu : Submenu) : endlines [menu.name] ++ insertSpaces (config.makeBdr menu) ++
      endlines ["ad".toList] = endlines (CliSession.menuLines menu (config.bdrLines menu)) := by
    have single : ∀ text ∈ (config.bdrLines menu).map BdrLine.text, '\n' ∉ text := by
      intro text member
      obtain ⟨line, listed, rfl⟩ := List.mem_map.mp member
      exact (runs_bdrLines printable menu listed : line.Runs .silent menu).single
    rw [makeBdr, insertSpaces_endlines single, ← endlines_append, ← endlines_append]
    simp [CliSession.menuLines, Function.comp_def]
  have all (menus : List Submenu) : (menus.flatMap fun menu => endlines [menu.name] ++
      insertSpaces (config.makeBdr menu) ++ endlines ["ad".toList]) = endlines (menus.flatMap
        fun menu => CliSession.menuLines menu (config.bdrLines menu)) := by
    induction menus with
    | nil => rfl
    | cons menu rest ih => rw [List.flatMap_cons, List.flatMap_cons, part, ih, endlines_append]
  exact all Submenu.all

theorem single_menuLines (printable : config.Printable) (menu : Submenu) :
    ∀ text ∈ CliSession.menuLines menu (config.bdrLines menu), '\n' ∉ text := by
  intro text member
  simp only [CliSession.menuLines, List.mem_cons, List.mem_append, List.mem_map,
    List.not_mem_nil, or_false] at member
  rcases member with rfl | ⟨line, member, rfl⟩ | rfl
  · cases menu <;> decide
  · simpa using (runs_bdrLines printable menu member : line.Runs .silent menu).single
  · decide

theorem feedLines_menus (printable : config.Printable) (menus : List Submenu)
    (target : CliConfig) (saved : Chars) :
    CliSession.feedLines env ⟨target, none, false, saved⟩
      (menus.flatMap fun menu => CliSession.menuLines menu (config.bdrLines menu)) =
        ⟨menus.foldl (fun target menu => replayMenu env menu target (config.bdrLines menu)) target,
          none, false, saved⟩ := by
  induction menus generalizing target with
  | nil => rfl
  | cons menu rest ih =>
      rw [List.flatMap_cons, CliSession.feedLines_append,
        CliSession.feedLines_menuLines (fun line => runs_bdrLines printable menu), ih]
      rfl

theorem importText_saved (printable : config.Printable) (target : CliConfig) :
    target.importText env (config.saved env) = Submenu.all.foldl
      (fun target menu => replayMenu env menu target (config.bdrLines menu)) target := by
  have single : ∀ text ∈ Submenu.all.flatMap fun menu =>
      CliSession.menuLines menu (config.bdrLines menu), '\n' ∉ text := by
    intro text member
    obtain ⟨menu, _, member⟩ := List.mem_flatMap.mp member
    exact single_menuLines printable menu text member
  rw [importText, CliSession.runFile, saved_eq, makeBdrString_eq printable,
    getlines_endlines single, CliSession.enter, feedLines_menus printable]

end CliConfig

end AutoDrop
