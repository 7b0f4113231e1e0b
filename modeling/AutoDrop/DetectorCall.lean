import AutoDrop.DevicePairingCore
import AutoDrop.RdDriverCore

/-!
`dev_vehicle_rd_detect` asks a driver for its detection. The client decodes the reply into
the struct of the caller one field after the other, and `call_remote` catches whatever is
thrown on the way, so the caller goes on with what the struct holds then.
-/

namespace AutoDrop

inductive DetectField (D : Type*)
  | state (value : VehiclePositionDetectState)
  | isFull (value : Bool)
  | fullOffset (value : D)
  | sideTopZ (value : D)
deriving DecidableEq

inductive DetectFailure (D : Type*)
  | connect
  | send
  | remoteException
  | receive (decoded : List (DetectField D))

inductive DetectCall (D : Type*)
  | failed (failure : DetectFailure D)
  | answered (decoded : List (DetectField D))

/-- `runner_rd_detect_result`, with the `float`s of Lua. -/
structure RunnerRdDetectResult (F : Type*) where
  state : VehiclePositionDetectState
  isFull : Bool
  fullOffset : F
  sideTopZ : F
deriving DecidableEq

variable {Name F D : Type*}

namespace DetectField

def state? : DetectField D → Option VehiclePositionDetectState
  | state value => some value
  | _ => none

def isFull? : DetectField D → Option Bool
  | isFull value => some value
  | _ => none

end DetectField

namespace VehicleRdDetectResult

def zero [Zero D] : VehicleRdDetectResult D :=
  ⟨.vehiclePostionBegin, false, 0, 0⟩

def store (result : VehicleRdDetectResult D) : DetectField D → VehicleRdDetectResult D
  | .state value => { result with state := value }
  | .isFull value => { result with isFull := value }
  | .fullOffset value => { result with fullOffset := value }
  | .sideTopZ value => { result with sideTopZ := value }

theorem state_foldl_store (decoded : List (DetectField D)) (result : VehicleRdDetectResult D) :
    (decoded.foldl store result).state =
      (decoded.filterMap DetectField.state?).getLast?.getD result.state := by
  induction decoded generalizing result with
  | nil => rfl
  | cons field rest ih =>
      rw [List.foldl_cons, ih]
      cases field with
      | state value => simp [store, DetectField.state?, List.getLast?_cons]
      | isFull | fullOffset | sideTopZ => simp [store, DetectField.state?]

theorem isFull_foldl_store (decoded : List (DetectField D)) (result : VehicleRdDetectResult D) :
    (decoded.foldl store result).isFull =
      (decoded.filterMap DetectField.isFull?).getLast?.getD result.isFull := by
  induction decoded generalizing result with
  | nil => rfl
  | cons field rest ih =>
      rw [List.foldl_cons, ih]
      cases field with
      | isFull value => simp [store, DetectField.isFull?, List.getLast?_cons]
      | state | fullOffset | sideTopZ => simp [store, DetectField.isFull?]

end VehicleRdDetectResult

open VehicleRdDetectResult

def DetectFailure.decoded : DetectFailure D → List (DetectField D)
  | receive decoded => decoded
  | _ => []

/-- The `vehicle_rd_detect` of the client, and whether it throws. -/
def clientVehicleRdDetect (call : DetectCall D) (ret : VehicleRdDetectResult D) :
    VehicleRdDetectResult D × Bool :=
  match call with
  | .failed failure => (failure.decoded.foldl store ret, true)
  | .answered decoded => (decoded.foldl store ret, false)

/-- `call_remote`: what is thrown while it connects or in `_func` is logged only. -/
def callRemote (call : DetectCall D) (ret : VehicleRdDetectResult D) : VehicleRdDetectResult D :=
  match call with
  | .failed .connect => ret
  | call => (clientVehicleRdDetect call ret).1

/-- `remote` tells how a call to the driver on a port ends. -/
def devVehicleRdDetect [DecidableEq Name] [Zero D] (narrow : D → F) (remote : Nat → DetectCall D)
    (deviceMap : Name → Option Nat) (name : Name) :
    (Name → Option Nat) × RunnerRdDetectResult F :=
  let (deviceMap, port) := Pairing.getDevice deviceMap name
  let ret := callRemote (remote port) VehicleRdDetectResult.zero
  (deviceMap, ⟨ret.state, ret.isFull, narrow ret.fullOffset, narrow ret.sideTopZ⟩)

def RunnerRdDetectResult.NoVehicle (result : RunnerRdDetectResult F) : Prop :=
  result.state = .vehiclePostionOut ∧ result.isFull = false

instance (result : RunnerRdDetectResult F) : Decidable result.NoVehicle :=
  inferInstanceAs (Decidable (_ ∧ _))

theorem callRemote_failed (failure : DetectFailure D) (ret : VehicleRdDetectResult D) :
    callRemote (.failed failure) ret = failure.decoded.foldl store ret := by
  cases failure <;> rfl

/-- A failed call tells of no vehicle only if the driver's answer was read so far as to say
so. -/
theorem devVehicleRdDetect_noVehicle_iff [DecidableEq Name] [Zero D] (narrow : D → F)
    (remote : Nat → DetectCall D) (deviceMap : Name → Option Nat) (name : Name)
    (failure : DetectFailure D)
    (failed : remote (Pairing.getDevice deviceMap name).2 = .failed failure) :
    (devVehicleRdDetect narrow remote deviceMap name).2.NoVehicle ↔
      (failure.decoded.filterMap DetectField.state?).getLast? = some .vehiclePostionOut ∧
        (failure.decoded.filterMap DetectField.isFull?).getLast? ≠ some true := by
  simp only [devVehicleRdDetect, RunnerRdDetectResult.NoVehicle, failed, callRemote_failed,
    state_foldl_store, isFull_foldl_store, VehicleRdDetectResult.zero]
  refine and_congr ?_ ?_
  · cases (failure.decoded.filterMap DetectField.state?).getLast? with
    | none => simp
    | some state => simp
  · cases (failure.decoded.filterMap DetectField.isFull?).getLast? with
    | none => simp
    | some isFull => simp

/-- The reply of driver 7 is cut off behind its first two fields. -/
def cutReply : Nat → DetectCall Int
  | 7 => .failed (.receive [.state .vehiclePostionOut, .isFull false])
  | _ => .failed .connect

theorem devVehicleRdDetect_noVehicle_cut :
    (devVehicleRdDetect id cutReply (fun name : Bool => if name then some 7 else none)
      true).2.NoVehicle :=
  (devVehicleRdDetect_noVehicle_iff id cutReply (fun name => if name then some 7 else none) true
    (.receive [.state .vehiclePostionOut, .isFull false]) rfl).mpr (by decide)

theorem devVehicleRdDetect_unknown :
    (devVehicleRdDetect id cutReply (fun _ : Bool => none) true).2 =
        ⟨.vehiclePostionBegin, false, 0, 0⟩ ∧
      ¬(devVehicleRdDetect id cutReply (fun _ : Bool => none) true).2.NoVehicle := by
  decide

end AutoDrop
