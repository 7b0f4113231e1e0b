import AutoDrop.CliSplit
import Mathlib.Algebra.Group.Int.Defs
import Mathlib.Algebra.Ring.Nat

/-!
The configuration that the commands of the command line edit: the yaml file with its
devices, state machine and redis parameters, and the log filters of the process. A field
that is read with a default is modelled by the value read; the fields that the runner
reads without one are optional. A command either writes the configuration or leaves it
and prints a text.
-/

namespace AutoDrop

structure EventNode where
  trigger : Option Chars
  next : Option Chars
deriving DecidableEq, Repr

structure StateNode where
  name : Chars
  enter : Option Chars
  exit : Option Chars
  action : Option Chars
  next : Chars
  events : List EventNode
deriving DecidableEq, Repr

structure DeviceNode where
  name : Chars
  driver : Chars
  args : Chars
deriving DecidableEq, Repr

structure RedisNode where
  host : Chars
  port : Int
  password : Chars
deriving DecidableEq, Repr

structure LogOutputConfig where
  logLevel : Chars
  logModule : Chars
deriving DecidableEq, Repr

structure CliConfig where
  devices : List DeviceNode
  initState : Chars
  states : List StateNode
  redis : RedisNode
  logConfig : List LogOutputConfig
deriving DecidableEq, Repr

/-- What the commands ask of the system: the installed drivers, the Lua syntax check with
its error text, and the editor, which gets a tool and the current code. -/
structure CliEnv where
  allDriver : List Chars
  checkLuaCode : Chars → Chars
  editByEditor : Chars → Chars → Chars

def CliEnv.silent : CliEnv := ⟨[], fun _ => [], fun _ code => code⟩

inductive ActionType
  | enter
  | exit
  | action
deriving DecidableEq, Repr

abbrev CliHandler := CliConfig → List Chars → Except String CliConfig

/-- `std::isspace` in the C locale. -/
def isSpace (c : Char) : Bool :=
  c = ' ' || c = '\t' || c = '\n' || c.toNat = 11 || c.toNat = 12 || c = '\r'

def stoiDigits (digits : Chars) : Option Nat :=
  if digits.takeWhile Char.isDigit = [] then none
  else some (Nat.ofDigitChars 10 (digits.takeWhile Char.isDigit) 0)

/-- `std::stoi`, which throws where there is no number or none that fits an `int`. -/
def stoi (text : Chars) : Option Int :=
  let number : Option Int :=
    match text.dropWhile isSpace with
    | '-' :: digits => (stoiDigits digits).map fun magnitude : Nat => -(magnitude : Int)
    | '+' :: digits => (stoiDigits digits).map fun magnitude : Nat => (magnitude : Int)
    | digits => (stoiDigits digits).map fun magnitude : Nat => (magnitude : Int)
  number.filter fun value => -2 ^ 31 ≤ value ∧ value < 2 ^ 31

def intToString : Int → Chars
  | .ofNat magnitude => Nat.toDigits 10 magnitude
  | .negSucc magnitude => '-' :: Nat.toDigits 10 (magnitude + 1)

/-- The texts of the `check_params` of a command, one for each missing parameter. -/
def checkParams (params : List Chars) (prompts : List String) : String :=
  String.join (prompts.zipIdx.map fun (prompt, index) =>
    if params.length ≤ index then
      "第" ++ toString (index + 1) ++ "个参数无效，要求传入" ++ prompt ++ "\n"
    else "")

def makeNewState (name : Chars) : StateNode where
  name := name
  enter := some []
  exit := some []
  action := some []
  next := []
  events := []

/-- A change of the first state of a name, the one that `get_state_from_sm` returns. -/
def editState (name : Chars) (edit : StateNode → StateNode) : List StateNode → List StateNode
  | [] => []
  | state :: rest =>
      if state.name = name then edit state :: rest else state :: editState name edit rest

namespace StateNode

def code (state : StateNode) : ActionType → Option Chars
  | .enter => state.enter
  | .exit => state.exit
  | .action => state.action

def setCode (state : StateNode) (code : Chars) : ActionType → StateNode
  | .enter => { state with enter := some code }
  | .exit => { state with exit := some code }
  | .action => { state with action := some code }

def hasEvent (state : StateNode) (trigger : Chars) : Bool :=
  state.events.any fun event => event.trigger.getD [] = trigger

end StateNode

def ActionType.word : ActionType → Chars
  | .enter => "enter".toList
  | .exit => "exit".toList
  | .action => "do".toList

def ActionType.all : List ActionType := [.enter, .exit, .action]

/-- `replaceNewlinesAndQuotes`, how a code is printed. -/
def replaceNewlinesAndQuotes (code : Chars) : Chars :=
  code.flatMap fun c => if c = '\n' then ['<', '>'] else if c = '"' then ['\\', '"'] else [c]

def restoreNewlines : Chars → Chars
  | '<' :: '>' :: rest => '\n' :: restoreNewlines rest
  | c :: rest => c :: restoreNewlines rest
  | [] => []

namespace CliConfig

/-- What is left by the root command `clear`. -/
def cleared : CliConfig := ⟨[], [], [], ⟨[], 0, []⟩, []⟩

def sample : CliConfig := { cleared with
  initState := "idle".toList
  states := [makeNewState "idle".toList] }

def getState (config : CliConfig) (name : Chars) : Option StateNode :=
  config.states.find? fun state => state.name = name

def after (config : CliConfig) : Except String CliConfig → CliConfig
  | .ok written => written
  | .error _ => config

def addDevice (env : CliEnv) (config : CliConfig) : List Chars → Except String CliConfig
  | driver :: name :: args :: _ =>
      if driver ∉ env.allDriver then .error ("驱动" ++ String.ofList driver ++ "不存在")
      else if config.devices.any fun device => device.name = name then
        .error ("设备" ++ String.ofList name ++ "已存在")
      else .ok { config with devices := config.devices ++ [⟨name, driver, args⟩] }
  | params => .error (checkParams params ["驱动名称", "设备名称", "参数列表"])

def createState (config : CliConfig) : List Chars → Except String CliConfig
  | name :: _ =>
      if config.states.any fun state => state.name = name then
        .error ("状态" ++ String.ofList name ++ "已存在")
      else .ok { config with states := config.states ++ [makeNewState name] }
  | params => .error (checkParams params ["状态名称"])

def setNext (config : CliConfig) : List Chars → Except String CliConfig
  | name :: next :: _ =>
      match config.getState name, config.getState next with
      | some _, some _ =>
          .ok { config with
            states := editState name (fun state => { state with next := next }) config.states }
      | _, _ => .error ("状态" ++ String.ofList name ++ "或" ++ String.ofList next ++ "不存在")
  | params => .error (checkParams params ["状态名称", "下一个状态"])

def setInit (config : CliConfig) : List Chars → Except String CliConfig
  | name :: _ =>
      match config.getState name with
      | some _ => .ok { config with initState := name }
      | none => .error ("状态" ++ String.ofList name ++ "不存在")
  | params => .error (checkParams params ["状态名称"])

def addEvent (config : CliConfig) : List Chars → Except String CliConfig
  | name :: trigger :: target :: _ =>
      match config.getState name, config.getState target with
      | some state, some _ =>
          if state.hasEvent trigger then .error ("事件" ++ String.ofList trigger ++ "已存在")
          else .ok { config with
            states := editState name
              (fun state => { state with
                events := state.events ++ [⟨some trigger, some target⟩] }) config.states }
      | _, _ => .error ("状态" ++ String.ofList name ++ "或" ++ String.ofList target ++ "不存在")
  | params => .error (checkParams params ["状态名称", "事件名称", "目标状态"])

def changeStateAction (env : CliEnv) (config : CliConfig) (name type code : Chars) :
    Except String CliConfig :=
  match config.getState name with
  | none => .error ("状态" ++ String.ofList name ++ "不存在\n")
  | some _ =>
      match ActionType.all.find? fun kind => kind.word = type with
      | none => .error ("动作类型" ++ String.ofList type ++ "无效\n")
      | some kind =>
          if env.checkLuaCode code = [] then
            .ok { config with
              states := editState name (fun state => state.setCode code kind) config.states }
          else .error (String.ofList (env.checkLuaCode code) ++ "\n")

def inputAction (env : CliEnv) (config : CliConfig) : List Chars → Except String CliConfig
  | name :: type :: code :: _ => config.changeStateAction env name type (restoreNewlines code)
  | params => .error (checkParams params ["状态名称", "动作类型", "Lua代码"])

/-- `get_current_action`; another field of the state is asked for by its own name. -/
def getCurrentAction (config : CliConfig) (name type : Chars) : Chars :=
  match config.getState name with
  | none => []
  | some state =>
      if type = "do".toList then state.action.getD []
      else if type = "enter".toList then state.enter.getD []
      else if type = "exit".toList then state.exit.getD []
      else if type = "name".toList then state.name
      else []

def editAction (env : CliEnv) (config : CliConfig) : List Chars → Except String CliConfig
  | name :: type :: rest =>
      config.changeStateAction env name type
        (env.editByEditor (rest.headD "ne".toList) (config.getCurrentAction name type))
  | params => .error (checkParams params ["状态名称", "动作类型"])

def redisParams (config : CliConfig) : List Chars → Except String CliConfig
  | host :: port :: password :: _ =>
      match stoi port with
      | none => .error "stoi"
      | some number => .ok { config with redis := ⟨host, number, password⟩ }
  | params => .error (checkParams params ["主机名", "端口", "密码"])

def enableLog (config : CliConfig) : List Chars → Except String CliConfig
  | logModule :: logLevel :: _ =>
      if ⟨logLevel, logModule⟩ ∈ config.logConfig then .ok config
      else .ok { config with logConfig := config.logConfig ++ [⟨logLevel, logModule⟩] }
  | params => .error (checkParams params ["模块", "日志级别"])

def disableLog (config : CliConfig) : List Chars → Except String CliConfig
  | logModule :: logLevel :: _ =>
      .ok { config with logConfig := config.logConfig.erase ⟨logLevel, logModule⟩ }
  | params => .error (checkParams params ["模块", "日志级别"])

end CliConfig

end AutoDrop
