import AutoDrop.LabelledRun
import Mathlib.Logic.Function.Basic

/-!
The pairing of a runner with its drivers: `m_device_map` of the runner and `m_sm_port` of
each driver. A call of `match_device` or `clear_device` waits for the answer of the driver,
so other calls, and crashes of drivers, come between its steps.
-/

namespace AutoDrop

inductive SetSmPhase
  | requested
  | broken
  | executed
deriving DecidableEq, Repr

/-- A call that waits for `set_sm`, with what held when it began: that the runner had the
port for the name, and that the driver held the runner's port. `wrote` tells whether the
call changed a side. -/
structure PairingCall (Name : Type*) where
  name : Name
  port : Nat
  isMatch : Bool
  phase : SetSmPhase
  known : Bool
  paired : Bool
  wrote : Bool
deriving DecidableEq

/-- `driver` has the `m_sm_port` of the driver that runs on a port. -/
structure Pairing (Name : Type*) where
  deviceMap : Name → Option Nat
  driver : Nat → Option Nat
  calls : Nat → Option (PairingCall Name)

inductive PairingLabel (Name : Type*)
  | matchDevice (call : Nat) (useFor : Name) (port : Nat)
  | clearDevice (call : Nat) (useFor : Name)
  | setSm (call : Nat)
  | answer (call : Nat)
  | fail (call : Nat)
  | crash (port : Nat)
  | restart (port : Nat)
deriving DecidableEq

/-- A call as it begins; a name that is matched anew changes the map at once. -/
def PairingCall.begun {Name : Type*} (name : Name) (port : Nat) (isMatch known paired : Bool) :
    PairingCall Name :=
  ⟨name, port, isMatch, .requested, known, paired, !known⟩

namespace Pairing

variable {Name : Type*} [DecidableEq Name]

def start (running : Nat → Bool) : Pairing Name where
  deviceMap := fun _ => none
  driver := fun port => if port ≠ 0 ∧ running port then some 0 else none
  calls := fun _ => none

def setDevice (map : Name → Option Nat) (name : Name) (port : Nat) : Name → Option Nat :=
  Function.update map name (some port)

/-- `get_device` drops an entry of value zero. -/
def getDevice (map : Name → Option Nat) (name : Name) : (Name → Option Nat) × Nat :=
  let ret := (map name).getD 0
  (if ret = 0 then Function.update map name none else map, ret)

def withCall (pairing : Pairing Name) (id : Nat) (call : Option (PairingCall Name)) :
    Pairing Name :=
  { pairing with calls := Function.update pairing.calls id call }

/-- The request of a call is on its way from when the call begins; a crash of the driver
breaks its connection. A call fails at any moment, and only `clear_device` looks at the
answer. -/
def step (listenPort : Nat) (pairing : Pairing Name) :
    PairingLabel Name → Option (Pairing Name)
  | .matchDevice id name port =>
      if pairing.calls id = none then
        let known := (getDevice pairing.deviceMap name).2 = port
        let paired := pairing.driver port = some listenPort
        some { pairing.withCall id (some (.begun name port true known paired)) with
          deviceMap := setDevice pairing.deviceMap name port }
      else none
  | .clearDevice id name =>
      if pairing.calls id = none then
        let (map, port) := getDevice pairing.deviceMap name
        let paired := pairing.driver port = some listenPort
        some { pairing.withCall id (some (.begun name port false true paired)) with
          deviceMap := map }
      else none
  | .setSm id =>
      match pairing.calls id with
      | none => none
      | some call =>
          match call.phase, pairing.driver call.port with
          | .requested, some held =>
              let smPort := if call.isMatch then listenPort else 0
              some { pairing.withCall id (some { call with
                       phase := .executed
                       wrote := call.wrote || decide (held ≠ smPort) }) with
                driver := Function.update pairing.driver call.port (some smPort) }
          | _, _ => none
  | .answer id =>
      match pairing.calls id with
      | none => none
      | some call =>
          if call.phase = .executed then
            some { pairing.withCall id none with
              deviceMap := if call.isMatch then pairing.deviceMap
                else setDevice pairing.deviceMap call.name 0 }
          else none
  | .fail id => if pairing.calls id = none then none else some (pairing.withCall id none)
  | .crash port =>
      if pairing.driver port = none then none
      else some { pairing with
        driver := Function.update pairing.driver port none
        calls := fun id => (pairing.calls id).map fun call =>
          if call.port = port ∧ call.phase = .requested then { call with phase := .broken }
          else call }
  | .restart port =>
      if port ≠ 0 ∧ pairing.driver port = none then
        some { pairing with driver := Function.update pairing.driver port (some 0) }
      else none

def Quiet (pairing : Pairing Name) : Prop := ∀ id, pairing.calls id = none

def Maps (pairing : Pairing Name) (port : Nat) : Prop :=
  ∃ name, pairing.deviceMap name = some port

/-- With no call in progress, the runner maps a name to a port exactly if the driver on the
port holds the runner's port. -/
def Agrees (listenPort : Nat) (pairing : Pairing Name) : Prop :=
  pairing.Quiet → ∀ port, port ≠ 0 →
    (pairing.Maps port ↔ pairing.driver port = some listenPort)

/-- A call that returns false changed neither side. -/
def LeavesAsWas (pairing : Pairing Name) (label : PairingLabel Name) : Prop :=
  ∀ id call, label = .fail id → pairing.calls id = some call → call.wrote = false

end Pairing

end AutoDrop
