import AutoDrop.CliConfig
import AutoDrop.CliLines

/-!
The menus, a session that feeds lines to them, and the text that `save` writes. A menu
prints one command for each entry of its part of the configuration; a file session feeds
every line that a newline ends.
-/

namespace AutoDrop

open SplitText

inductive Submenu
  | device
  | stateMachine
  | runtime
  | redis
deriving DecidableEq, Repr

/-- `current` is none in the root menu; `savedConfig` is the file that `save` writes. -/
structure CliSession where
  config : CliConfig
  current : Option Submenu
  exit : Bool
  savedConfig : Chars
deriving DecidableEq, Repr

abbrev BdrLine := String × Chars

/-- A command that prints or runs something and leaves the configuration alone. -/
def leavesConfig : CliHandler := fun config _ => .ok config

namespace Submenu

def all : List Submenu := [device, stateMachine, runtime, redis]

def name : Submenu → Chars
  | device => "device".toList
  | stateMachine => "state_machine".toList
  | runtime => "runtime".toList
  | redis => "redis".toList

def commands (env : CliEnv) : Submenu → List (String × CliHandler)
  | device => [("list_driver", leavesConfig), ("add_device", CliConfig.addDevice env)]
  | stateMachine =>
      [("create_state", CliConfig.createState), ("edit_action", CliConfig.editAction env),
       ("input_action", CliConfig.inputAction env), ("set_next", CliConfig.setNext),
       ("add_event", CliConfig.addEvent), ("set_init", CliConfig.setInit),
       ("test_lua", leavesConfig)]
  | runtime =>
      [("restart", leavesConfig), ("list", leavesConfig), ("mock", leavesConfig),
       ("enable_log", CliConfig.enableLog), ("disable_log", CliConfig.disableLog),
       ("open_log", leavesConfig), ("close_log", leavesConfig), ("save_ply", leavesConfig),
       ("set_lc_open", leavesConfig), ("send_sm_event", leavesConfig),
       ("show_sm_state", leavesConfig)]
  | redis => [("params", CliConfig.redisParams), ("get", leavesConfig), ("set", leavesConfig)]

def clear : Submenu → CliConfig → CliConfig
  | device, config => { config with devices := [] }
  | stateMachine, config => { config with initState := [], states := [] }
  | runtime, config => { config with logConfig := [] }
  | redis, config => { config with redis := ⟨[], 0, []⟩ }

def handler (env : CliEnv) (menu : Submenu) (name : Chars) : Option CliHandler :=
  ((menu.commands env).find? fun command => command.1.toList = name).map Prod.snd

end Submenu

namespace CliConfig

def stateLines (state : StateNode) : List BdrLine :=
  ("create_state", printWords [state.name]) ::
    ActionType.all.flatMap fun type =>
      if state.code type = none ∨ state.code type = some [] then []
      else [("input_action", printWords [state.name, type.word] ++ ' ' :: '"' ::
        (replaceNewlinesAndQuotes ((state.code type).getD []) ++ ['"']))]

def transLines (state : StateNode) : List BdrLine :=
  (if state.next = [] then [] else [("set_next", printWords [state.name, state.next])]) ++
    state.events.map fun event => ("add_event",
      printWords [state.name, event.trigger.getD [], event.next.getD []])

def bdrLines (config : CliConfig) : Submenu → List BdrLine
  | .device =>
      config.devices.map fun device =>
        ("add_device", printWords [device.driver, device.name] ++ printQuoted device.args)
  | .stateMachine =>
      let named := config.states.filter fun state => state.name ≠ []
      named.flatMap stateLines ++ named.flatMap transLines ++
        if config.initState = [] then [] else [("set_init", printWords [config.initState])]
  | .runtime =>
      (config.logConfig.map fun log =>
        ("enable_log", printWords [log.logModule, log.logLevel])) ++ [("restart", [])]
  | .redis =>
      if config.redis.host = [] then []
      else [("params", printWords
        [config.redis.host, intToString config.redis.port, config.redis.password])]

end CliConfig

def BdrLine.text (line : BdrLine) : Chars := line.1.toList ++ line.2

def getlines : Chars → List Chars × Chars
  | [] => ([], [])
  | c :: rest =>
      if c = '\n' then ([] :: (getlines rest).1, (getlines rest).2)
      else match getlines rest with
        | ([], last) => ([], c :: last)
        | (line :: lines, last) => ((c :: line) :: lines, last)

def endlines (lines : List Chars) : Chars := lines.flatMap fun line => line ++ ['\n']

/-- A `getline` loop also reads a last line that no newline ends. -/
def insertSpaces (text : Chars) : Chars :=
  endlines (((getlines text).1 ++ if (getlines text).2 = [] then [] else [(getlines text).2]).map
    fun line => ' ' :: ' ' :: line)

def CliConfig.makeBdr (config : CliConfig) (menu : Submenu) : Chars :=
  endlines ((config.bdrLines menu).map BdrLine.text)

def CliConfig.makeBdrString (config : CliConfig) : Chars :=
  Submenu.all.flatMap fun menu =>
    endlines [menu.name] ++ insertSpaces (config.makeBdr menu) ++ endlines ["ad".toList]

namespace CliSession

def enter (config : CliConfig) : CliSession := ⟨config, none, false, []⟩

/-- A command of a menu; `bdr` and `clear` stand behind the others and take no parameter. -/
def execIn (env : CliEnv) (menu : Submenu) (session : CliSession) :
    List Chars → Option CliSession
  | [] => none
  | name :: params =>
      match menu.handler env name with
      | some run =>
          some { session with config := session.config.after (run session.config params) }
      | none =>
          if params ≠ [] then none
          else if name = "bdr".toList then some session
          else if name = "clear".toList then
            some { session with config := menu.clear session.config }
          else none

/-- `Menu::Exec` of a menu inside the root menu. -/
def execMenu (env : CliEnv) (session : CliSession) (menu : Submenu) :
    List Chars → Option CliSession
  | [] => none
  | [name] => if name = menu.name then some { session with current := some menu } else none
  | name :: rest => if name = menu.name then execIn env menu session rest else none

def execRoot (env : CliEnv) (session : CliSession) (words : List Chars) : Option CliSession :=
  match Submenu.all.findSome? fun menu => execMenu env session menu words with
  | some next => some next
  | none =>
      if words = ["bdr".toList] ∨ words = ["bash".toList] then some session
      else if words = ["clear".toList] then
        some { session with
          config := Submenu.all.foldl (fun config menu => menu.clear config) session.config }
      else if words = ["save".toList] then
        some { session with savedConfig := session.config.makeBdrString }
      else none

/-- Inside a menu the root menu, whose name is `ad`, is tried last. -/
def execParent (env : CliEnv) (session : CliSession) : List Chars → Option CliSession
  | [] => none
  | name :: rest =>
      if name ≠ "ad".toList then none
      else if rest = [] then some { session with current := none }
      else execRoot env session rest

def scanCmds (env : CliEnv) (session : CliSession) (words : List Chars) : Option CliSession :=
  match session.current with
  | none => execRoot env session words
  | some menu =>
      match execIn env menu session words with
      | some next => some next
      | none => execParent env session words

def feed (env : CliEnv) (session : CliSession) (line : Chars) : CliSession :=
  let words := splitInto line
  if words = [] ∨ words = ["help".toList] then session
  else if words = ["exit".toList] then { session with exit := true }
  else (scanCmds env session words).getD session

def feedLines (env : CliEnv) (session : CliSession) (lines : List Chars) : CliSession :=
  lines.foldl (fun session line => if session.exit then session else feed env session line) session

def runFile (env : CliEnv) (session : CliSession) (text : Chars) : CliSession :=
  feedLines env session (getlines text).1

end CliSession

def CliConfig.saved (env : CliEnv) (config : CliConfig) : Chars :=
  ((CliSession.enter config).feed env "save".toList).savedConfig

/-- The configuration that a file session makes of a text. -/
def CliConfig.importText (env : CliEnv) (config : CliConfig) (text : Chars) : CliConfig :=
  ((CliSession.enter config).runFile env text).config

end AutoDrop
