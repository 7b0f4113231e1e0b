import AutoDrop.CStrings
import AutoDrop.LabelledRun
import Mathlib.Algebra.Ring.Nat

/-!
The stack of `m_L` over the calls of `call_lua_func` and `check_lua_code`. Lua itself is a
parameter: what it makes of a text and of the call of a function, in any world of globals.
The top of the stack comes first.
-/

namespace AutoDrop

open LabelledRun

/-- A function and a message are values too; `toString` is what `lua_tostring` shows. -/
structure LuaInterpreter (World Value : Type*) where
  load : World → List UInt8 → World × Except Value Value
  run : World → Value → World × Except Value (List Value)
  toString : Value → Option (List UInt8)

/-- `logged` holds the arguments that the errors were logged with. -/
structure LuaMachine (World Value : Type*) where
  world : World
  stack : List Value
  logged : List (Option (List UInt8))

inductive LuaCall
  | callLuaFunc (func : List UInt8)
  | checkLuaCode (code : List UInt8) (isRealRun : Bool)
deriving DecidableEq

namespace LuaMachine

variable {World Value : Type*} (lua : LuaInterpreter World Value)

/-- `luaL_loadstring`, and whether it returns `LUA_OK`. -/
def loadString (machine : LuaMachine World Value) (text : List UInt8) :
    LuaMachine World Value × Bool :=
  match lua.load machine.world (cString text) with
  | (world, .ok func) => ({ machine with world, stack := func :: machine.stack }, true)
  | (world, .error message) => ({ machine with world, stack := message :: machine.stack }, false)

/-- `lua_pcall` without arguments and with `LUA_MULTRET`; it takes the function away. -/
def pcall (machine : LuaMachine World Value) : Option (LuaMachine World Value × Bool) :=
  match machine.stack with
  | [] => none
  | func :: rest =>
      match lua.run machine.world func with
      | (world, .ok results) => some ({ machine with world, stack := results.reverse ++ rest }, true)
      | (world, .error message) => some ({ machine with world, stack := message :: rest }, false)

/-- `lua_tostring(L, -1)` -/
def topString (machine : LuaMachine World Value) : Option (List UInt8) :=
  machine.stack.head?.bind lua.toString

def doString (machine : LuaMachine World Value) (text : List UInt8) :
    Option (LuaMachine World Value × Bool) :=
  let (loaded, ok) := loadString lua machine text
  if ok then pcall lua loaded else some (loaded, false)

def callLuaFunc (machine : LuaMachine World Value) (func : List UInt8) :
    Option (LuaMachine World Value) :=
  if func.isEmpty then some machine
  else (doString lua machine func).map fun (after, ok) =>
    if ok then after else { after with logged := after.logged ++ [topString lua after] }

/-- The machine and the string that is returned. A message that is no string is assigned to it
as a null pointer, which has no result. -/
def checkLuaCode (machine : LuaMachine World Value) (code : List UInt8) (isRealRun : Bool) :
    Option (LuaMachine World Value × List UInt8) :=
  let (loaded, ok) := loadString lua machine code
  if ok then
    if isRealRun then
      (pcall lua loaded).bind fun (after, ok) =>
        if ok then some (after, [])
        else (topString lua after).map fun message => (after, cString message)
    else some (loaded, [])
  else (topString lua loaded).map fun message => (loaded, cString message)

def step (machine : LuaMachine World Value) : LuaCall → Option (LuaMachine World Value)
  | .callLuaFunc func => callLuaFunc lua machine func
  | .checkLuaCode code isRealRun => (checkLuaCode lua machine code isRealRun).map Prod.fst

/-- The text compiles and runs, and returns no value. -/
def Silent (world : World) (text : List UInt8) : Prop :=
  ∃ loaded func after, lua.load world (cString text) = (loaded, .ok func) ∧
    lua.run loaded func = (after, .ok [])

def LeavesNothing (machine : LuaMachine World Value) : LuaCall → Prop
  | .callLuaFunc func => func = [] ∨ Silent lua machine.world func
  | .checkLuaCode code isRealRun => isRealRun = true ∧ Silent lua machine.world code

variable {lua} {machine next after : LuaMachine World Value} {text : List UInt8} {ok : Bool}

theorem loadString_cases (lua : LuaInterpreter World Value) (machine : LuaMachine World Value)
    (text : List UInt8) :
    (∃ loaded func, lua.load machine.world (cString text) = (loaded, .ok func) ∧
      loadString lua machine text =
        ({ machine with world := loaded, stack := func :: machine.stack }, true)) ∨
    ∃ loaded message, lua.load machine.world (cString text) = (loaded, .error message) ∧
      loadString lua machine text =
        ({ machine with world := loaded, stack := message :: machine.stack }, false) := by
  unfold loadString
  rcases lua.load machine.world (cString text) with ⟨loaded, message | func⟩
  · exact .inr ⟨loaded, message, rfl, rfl⟩
  · exact .inl ⟨loaded, func, rfl, rfl⟩

theorem not_silent_of_error {loaded : World} {message : Value}
    (loads : lua.load machine.world (cString text) = (loaded, .error message)) :
    ¬Silent lua machine.world text := by
  rintro ⟨other, func, final, compiles, -⟩
  rw [loads] at compiles
  cases compiles

theorem silent_iff_of_loads {loaded : World} {func : Value}
    (loads : lua.load machine.world (cString text) = (loaded, .ok func)) :
    Silent lua machine.world text ↔ (lua.run loaded func).2 = .ok [] := by
  constructor
  · rintro ⟨other, found, final, compiles, runs⟩
    rw [loads] at compiles
    obtain ⟨rfl, same⟩ := Prod.mk.inj compiles
    obtain rfl := Except.ok.inj same
    rw [runs]
  · intro quiet
    exact ⟨loaded, func, (lua.run loaded func).1, loads, Prod.ext rfl quiet⟩

theorem pcall_leaves {func : Value} {rest : List Value} (top : machine.stack = func :: rest)
    (done : pcall lua machine = some (after, ok)) :
    ∃ left, after.stack = left ++ rest ∧
      (left = [] ↔ (lua.run machine.world func).2 = .ok []) := by
  rw [pcall, top] at done
  dsimp only at done
  split at done
  · rename_i world results runs
    obtain ⟨rfl, -⟩ := Prod.mk.inj (Option.some.inj done)
    refine ⟨results.reverse, rfl, ?_⟩
    rw [runs, List.reverse_eq_nil_iff]
    exact (Except.ok.injEq results []).symm ▸ Iff.rfl
  · rename_i world message runs
    obtain ⟨rfl, -⟩ := Prod.mk.inj (Option.some.inj done)
    refine ⟨[message], rfl, ?_⟩
    rw [runs]
    simp

theorem doString_leaves (done : doString lua machine text = some (after, ok)) :
    ∃ left, after.stack = left ++ machine.stack ∧ (left = [] ↔ Silent lua machine.world text) := by
  unfold doString at done
  rcases loadString_cases lua machine text with
    ⟨loaded, func, loads, result⟩ | ⟨loaded, message, loads, result⟩
  · rw [result] at done
    rw [silent_iff_of_loads loads]
    have called : pcall lua { machine with world := loaded, stack := func :: machine.stack } =
        some (after, ok) := done
    exact pcall_leaves rfl called
  · rw [result] at done
    obtain ⟨rfl, -⟩ := Prod.mk.inj (Option.some.inj done)
    exact ⟨[message], rfl, iff_of_false (List.cons_ne_nil _ _) (not_silent_of_error loads)⟩

theorem callLuaFunc_leaves {func : List UInt8} (done : callLuaFunc lua machine func = some next) :
    ∃ left, next.stack = left ++ machine.stack ∧
      (left = [] ↔ LeavesNothing lua machine (.callLuaFunc func)) := by
  unfold callLuaFunc at done
  split at done
  · rename_i empty
    obtain rfl := Option.some.inj done
    exact ⟨[], rfl, iff_of_true rfl (.inl (List.isEmpty_iff.mp empty))⟩
  · rename_i nonempty
    obtain ⟨⟨after, ok⟩, ran, rfl⟩ := Option.map_eq_some_iff.mp done
    obtain ⟨left, stack, quiet⟩ := doString_leaves ran
    have unlogged : (if ok = true then after
        else { after with logged := after.logged ++ [topString lua after] }).stack =
          after.stack := by
      split <;> rfl
    refine ⟨left, unlogged.trans stack, quiet.trans ?_⟩
    exact (or_iff_right fun empty => nonempty (List.isEmpty_iff.mpr empty)).symm

theorem checkLuaCode_leaves {code reply : List UInt8} {isRealRun : Bool}
    (done : checkLuaCode lua machine code isRealRun = some (next, reply)) :
    ∃ left, next.stack = left ++ machine.stack ∧
      (left = [] ↔ LeavesNothing lua machine (.checkLuaCode code isRealRun)) := by
  unfold checkLuaCode at done
  rcases loadString_cases lua machine code with
    ⟨loaded, func, loads, result⟩ | ⟨loaded, message, loads, result⟩
  · rw [result] at done
    cases isRealRun with
    | false =>
        obtain ⟨rfl, -⟩ := Prod.mk.inj (Option.some.inj done)
        exact ⟨[func], rfl, iff_of_false (List.cons_ne_nil _ _) fun quiet => nomatch quiet.1⟩
    | true =>
        obtain ⟨⟨after, ok⟩, called, replied⟩ := Option.bind_eq_some_iff.mp done
        obtain ⟨left, stack, quiet⟩ := pcall_leaves rfl called
        have same : next = after := by
          cases ok with
          | true => exact (Prod.mk.inj (Option.some.inj replied)).1.symm
          | false =>
              obtain ⟨message, -, given⟩ := Option.map_eq_some_iff.mp replied
              exact (Prod.mk.inj given).1.symm
        subst same
        refine ⟨left, stack, ?_⟩
        rw [quiet, LeavesNothing, silent_iff_of_loads loads, and_iff_right rfl]
  · rw [result] at done
    obtain ⟨shown, -, given⟩ := Option.map_eq_some_iff.mp done
    obtain ⟨rfl, -⟩ := Prod.mk.inj given
    exact ⟨[message], rfl, iff_of_false (List.cons_ne_nil _ _) fun quiet =>
      not_silent_of_error loads quiet.2⟩

theorem step_leaves {call : LuaCall} (taken : step lua machine call = some next) :
    ∃ left, next.stack = left ++ machine.stack ∧
      (left = [] ↔ LeavesNothing lua machine call) := by
  cases call with
  | callLuaFunc func => exact callLuaFunc_leaves taken
  | checkLuaCode code isRealRun =>
      obtain ⟨⟨after, reply⟩, checked, rfl⟩ := Option.map_eq_some_iff.mp taken
      exact checkLuaCode_leaves checked

theorem length_step_iff {call : LuaCall} (taken : step lua machine call = some next) :
    next.stack.length = machine.stack.length ↔ LeavesNothing lua machine call := by
  obtain ⟨left, stack, quiet⟩ := step_leaves taken
  rw [← quiet, stack, List.length_append, Nat.add_eq_right, List.length_eq_zero_iff]

/-- The height is kept by every call exactly if every call leaves nothing. -/
theorem always_balanced_iff (lua : LuaInterpreter World Value)
    (machine final : LuaMachine World Value) (calls : List LuaCall)
    (run : exec (step lua) machine calls = some final) :
    Always (step lua) (fun reached => reached.stack.length = machine.stack.length) machine calls ↔
      Meets (step lua) (LeavesNothing lua) machine calls := by
  refine always_iff_meets (fun _ kept => kept) ?_ ?_ rfl run
  · intro reached call next kept quiet taken
    exact ((length_step_iff taken).mpr quiet).trans kept
  · intro reached call next kept taken still
    exact (length_step_iff taken).mp (still.trans kept.symm)

def smallLua : LuaInterpreter Unit (List UInt8) where
  load _ text :=
    if text = asciiBytes "x =" then ((), .error (asciiBytes "unexpected symbol near <eof>"))
    else ((), .ok text)
  run _ func := if func = asciiBytes "return 1" then ((), .ok [asciiBytes "1"]) else ((), .ok [])
  toString value := some value

def emptyStack : LuaMachine Unit (List UInt8) := ⟨(), [], []⟩

theorem always_balanced_iff_assignments :
    Always (step smallLua) (fun reached => reached.stack.length = 0) emptyStack
      [.callLuaFunc [], .callLuaFunc (asciiBytes "x = 1"),
        .checkLuaCode (asciiBytes "x = 1") true] :=
  (always_balanced_iff smallLua emptyStack emptyStack _ rfl).mpr
    (.cons rfl (.inl rfl)
      (.cons rfl (.inr ⟨(), asciiBytes "x = 1", (), rfl, rfl⟩)
        (.cons rfl ⟨rfl, (), asciiBytes "x = 1", (), rfl, rfl⟩ trivial)))

/-- A result, a message of the compiler and a checked function stay on the stack. -/
theorem balanced_fails :
    ¬Always (step smallLua) (fun reached => reached.stack.length = 0) emptyStack
      [.callLuaFunc (asciiBytes "return 1")] ∧
    ∃ final, exec (step smallLua) emptyStack
      [.callLuaFunc (asciiBytes "return 1"), .callLuaFunc (asciiBytes "x ="),
        .checkLuaCode (asciiBytes "x = 1") false] = some final ∧
      final.stack = [asciiBytes "x = 1", asciiBytes "unexpected symbol near <eof>",
        asciiBytes "1"] := by
  refine ⟨fun always => ?_, _, rfl, rfl⟩
  have kept := (always.2 _ rfl).head
  exact Nat.succ_ne_zero 0 kept

end LuaMachine

end AutoDrop
