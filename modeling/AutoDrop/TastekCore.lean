import AutoDrop.RelayCore
import Mathlib.Data.Fin.VecNotation

/-!
The `TASTEK_DRIVER`: the coils that the relay wants on, the coils that the device was last
seen to have on, and the coils of the device itself, which only a successful
`modbus_write_bit` changes. A round of `run_modbus_loop` reads the coils and then brings
them in line one at a time; it makes no call that yields. `writeLog` keeps the coils of
the device as they are after each write, the latest first.
-/

namespace AutoDrop

instance neZeroCoils : NeZero 4 := ⟨by decide⟩

abbrev Coils := Fin 4 → Bool

structure Tastek where
  relay : LcRelay
  onAddrArray : Coils
  realAddrArray : Coils
  error : Bool
  curRetryTimes : Int
  physical : Coils
  writeLog : List Coils

inductive TastekLabel
  | relay (label : RelayLabel)
  | modbusRound (readOk : Bool) (writeOk : Coils)

namespace Tastek

/-- At start the open coil and the close coil are off; the other two may be on. -/
def start (coil2 coil3 : Bool) : Tastek where
  relay := .start
  onAddrArray := fun _ => false
  realAddrArray := fun _ => false
  error := false
  curRetryTimes := 0
  physical := ![false, false, coil2, coil3]
  writeLog := []

def openCloseLcCmd (driver : Tastek) (cmd : LcCmd) : Tastek :=
  if cmd.isOpen then
    { driver with onAddrArray := Function.update driver.onAddrArray 0 cmd.isOn }
  else { driver with onAddrArray := Function.update driver.onAddrArray 1 cmd.isOn }

def challengeError (retryTimes : Int) (driver : Tastek) (success : Bool) : Tastek :=
  if success then { driver with curRetryTimes := 0 }
  else
    { driver with
      curRetryTimes := driver.curRetryTimes + 1
      error := driver.error || retryTimes < driver.curRetryTimes + 1 }

def setCoil (retryTimes : Int) (driver : Tastek) (coilAddr : Fin 4) (on success : Bool) : Tastek :=
  let physical :=
    if success then Function.update driver.physical coilAddr on else driver.physical
  challengeError retryTimes
    { driver with physical := physical, writeLog := physical :: driver.writeLog } success

def lcGetCoil (retryTimes : Int) (driver : Tastek) (success : Bool) : Tastek :=
  challengeError retryTimes
    { driver with realAddrArray := if success then driver.physical else driver.realAddrArray }
    success

/-- One turn of the loop over the coils in `run_modbus_loop`. -/
def visitCoil (retryTimes : Int) (writeOk : Coils) (driver : Tastek) (coil : Fin 4) : Tastek :=
  if driver.realAddrArray coil ≠ driver.onAddrArray coil then
    driver.setCoil retryTimes coil (driver.onAddrArray coil) (writeOk coil)
  else driver

def modbusRound (retryTimes : Int) (driver : Tastek) (readOk : Bool) (writeOk : Coils) : Tastek :=
  [0, 1, 2, 3].foldl (visitCoil retryTimes writeOk) (driver.lcGetCoil retryTimes readOk)

def step (coe retryTimes : Int) (driver : Tastek) : TastekLabel → Option Tastek
  | .relay label =>
      (driver.relay.relayStep coe label).map fun (relay, cmds) =>
        cmds.foldl openCloseLcCmd { driver with relay := relay }
  | .modbusRound readOk writeOk => some (driver.modbusRound retryTimes readOk writeOk)

end Tastek

end AutoDrop
