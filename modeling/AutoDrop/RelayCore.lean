import AutoDrop.LabelledRun
import Mathlib.Algebra.Group.Int.Defs
import Mathlib.Algebra.Ring.Nat

/-!
The chute relay of `common_driver`: `execute_to_threshold` aims at a position, the
one-second timer moves the chute by one position, and `relay_do_action` switches the
direction through `open_close_lc_cmd`. No step yields before its fields are written, so
commands and ticks are atomic.
-/

namespace AutoDrop

/-- Wrap-around of an `int`, which is what the arithmetic does where it overflows. -/
def toInt32 (value : Int) : Int :=
  (value + 2 ^ 31) % 2 ^ 32 - 2 ^ 31

def InInt32 (value : Int) : Prop :=
  -2 ^ 31 ≤ value ∧ value < 2 ^ 31

instance (value : Int) : Decidable (InInt32 value) :=
  inferInstanceAs (Decidable (_ ∧ _))

inductive LcRelayState
  | stop
  | holdOpen
  | holdClose
deriving DecidableEq, Repr

/-- A call of the virtual `open_close_lc_cmd`. -/
structure LcCmd where
  isOpen : Bool
  isOn : Bool
deriving DecidableEq, Repr

structure LcRelay where
  relayState : LcRelayState
  stateStayPosition : Int
  expectPosition : Int
  lcOpenThreshold : Int
deriving DecidableEq, Repr

inductive RelayLabel
  | setLcOpen (threshold : Int)
  | tick
deriving DecidableEq, Repr

namespace LcRelay

def start : LcRelay :=
  ⟨.stop, 0, 0, 0⟩

def switchCmds : LcRelayState → List LcCmd
  | .stop => [⟨false, false⟩, ⟨true, false⟩]
  | .holdOpen => [⟨false, false⟩, ⟨true, true⟩]
  | .holdClose => [⟨true, false⟩, ⟨false, true⟩]

/-- The commands of `relay_do_action`; a request to move first stops what moves. -/
def relayCmds (origState reqState : LcRelayState) : List LcCmd :=
  if origState = reqState then []
  else (if reqState ≠ .stop ∧ origState ≠ .stop then switchCmds .stop else []) ++
    switchCmds reqState

def relayDoAction (relay : LcRelay) (reqState : LcRelayState) : LcRelay × List LcCmd :=
  ({ relay with relayState := reqState }, relayCmds relay.relayState reqState)

def executeToThreshold (coe : Int) (relay : LcRelay) (threshold : Int) : LcRelay × List LcCmd :=
  let relay := { relay with expectPosition := threshold.tdiv coe }
  let positionDiff := toInt32 (relay.expectPosition - relay.stateStayPosition)
  if 0 < positionDiff then relay.relayDoAction .holdOpen
  else if positionDiff < 0 then relay.relayDoAction .holdClose
  else (relay, [])

def move (relay : LcRelay) : LcRelay :=
  match relay.relayState with
  | .holdOpen => { relay with stateStayPosition := toInt32 (relay.stateStayPosition + 1) }
  | .holdClose => { relay with stateStayPosition := toInt32 (relay.stateStayPosition - 1) }
  | .stop => relay

def arrived (relay : LcRelay) : Bool :=
  (relay.relayState = .holdOpen && relay.expectPosition ≤ relay.stateStayPosition) ||
    (relay.relayState = .holdClose && relay.stateStayPosition ≤ relay.expectPosition)

/-- The callback of the timer that `start_relay_timer` starts. -/
def relayTick (coe : Int) (relay : LcRelay) : LcRelay × List LcCmd :=
  let moved := relay.move
  let (stopped, cmds) := if moved.arrived then moved.relayDoAction .stop else (moved, [])
  ({ stopped with lcOpenThreshold := toInt32 (stopped.stateStayPosition * coe) }, cmds)

/-- One command or tick, for a position coefficient; a division by zero ends the program. -/
def relayStep (coe : Int) (relay : LcRelay) : RelayLabel → Option (LcRelay × List LcCmd)
  | .setLcOpen threshold =>
      if InInt32 threshold ∧ coe ≠ 0 then some (relay.executeToThreshold coe threshold) else none
  | .tick => some (relay.relayTick coe)

def step (coe : Int) (relay : LcRelay) (label : RelayLabel) : Option LcRelay :=
  (relay.relayStep coe label).map Prod.fst

end LcRelay

end AutoDrop
