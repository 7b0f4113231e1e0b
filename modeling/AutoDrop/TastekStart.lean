import AutoDrop.StateReport
import AutoDrop.TravelTime

/-!
How the tastek driver is started: its host, its retries and the seconds that the chute takes come
from a JSON text, its second argument. The coefficient of the chute is divided by, so not every
such text lets it move.
-/

namespace AutoDrop

open LabelledRun

variable {Double : Type}

namespace CJsonObject

open Cjson

/-- What every `Get` looks up. -/
def item (json : CJsonObject Double) (strKey : List UInt8) : Option (Cjson Double) :=
  match json with
  | some (.object child) => getObjectItem strKey child
  | _ => none

/-- `Get` of a `std::string`. -/
def getString (json : CJsonObject Double) (strKey : List UInt8) : Option (List UInt8) :=
  match json.item strKey with
  | some (.string valuestring) => some valuestring
  | _ => none

/-- `Get` of an `int64`; `truncated` is the cast of a double. -/
def getInt64 (truncated : Double → Int) (json : CJsonObject Double) (strKey : List UInt8) :
    Option Int :=
  match json.item strKey with
  | some (.int value) => some value
  | some (.double value) => some (truncated value)
  | _ => none

end CJsonObject

namespace Tastek

open Cjson CJsonObject

structure TastekConfig where
  hostName : List UInt8
  retryTimes : Int
  fullSpend : Int
deriving DecidableEq

/-- The variables of `main` before the text is parsed. -/
def TastekConfig.initial : TastekConfig := ⟨[], 3, 5⟩

def TastekConfig.get (truncated : Double → Int) (inputConfig : CJsonObject Double) :
    TastekConfig where
  hostName := (inputConfig.getString (bytes "host")).getD initial.hostName
  retryTimes := (inputConfig.getInt64 truncated (bytes "retry")).getD initial.retryTimes
  fullSpend := (inputConfig.getInt64 truncated (bytes "spend")).getD initial.fullSpend

/-- What `main` hands to the constructor of `TASTEK_DRIVER`. -/
def mainConfig (format : DoubleFormat Double) (truncated : Double → Int) :
    List (List UInt8) → Option TastekConfig
  | _ :: _ :: argument :: _ =>
      let inputConfig := ofString format argument
      some (if inputConfig.isSome then .get truncated inputConfig else .initial)
  | _ => none

/-- A command or a tick of the driver, whose coefficient is computed each time. -/
def chuteStep (fullSpend : Int) (relay : LcRelay) (label : RelayLabel) : Option LcRelay :=
  (getPositionCoe fullSpend).bind fun coe => LcRelay.step coe relay label

theorem mainConfig_of_writes (format : DoubleFormat Double) (truncated : Double → Int)
    {child : CjsonMembers Double} {blank text behind : List UInt8} (white : Blank blank)
    (writes : Writes format (.object child) text) (ends : NoNul behind)
    (program port : List UInt8) (arguments : List (List UInt8)) :
    mainConfig format truncated (program :: port :: (blank ++ (text ++ behind)) :: arguments) =
      some (.get truncated (some (.object child))) := by
  rw [mainConfig, StateReport.ofString_of_writes white writes trivial ends]
  rfl

theorem tdiv_eq_zero_iff {spend : Int} (some : spend ≠ 0) :
    (100 : Int).tdiv spend = 0 ↔ 100 < spend.natAbs := by
  have positive : 0 < spend.natAbs := Int.natAbs_pos.mpr some
  have size : ((100 : Int).tdiv spend).natAbs = 100 / spend.natAbs := Int.natAbs_tdiv 100 spend
  rw [← Int.natAbs_eq_zero, size, Nat.div_eq_zero_iff]
  omega

theorem chuteStep_isSome {spend : Int} (within : 0 < spend.natAbs ∧ spend.natAbs ≤ 100)
    (relay : LcRelay) {label : RelayLabel} (admitted : LcRelay.Admitted label) :
    (chuteStep spend relay label).isSome := by
  have some : spend ≠ 0 := Int.natAbs_pos.mp within.1
  cases label with
  | tick => simp [chuteStep, getPositionCoe, some, LcRelay.step, LcRelay.relayStep]
  | setLcOpen threshold =>
    have divides : (100 : Int).tdiv spend ≠ 0 := fun zero =>
      Nat.not_lt.mpr within.2 ((tdiv_eq_zero_iff some).mp zero)
    exact Option.isSome_iff_exists.mpr
      ⟨_, (setLcOpen_eq_some admitted).mpr ⟨some, divides, rfl⟩⟩

/-- Whatever is commanded and however the time passes, the driver goes on. -/
theorem chuteRun_isSome {spend : Int} (within : 0 < spend.natAbs ∧ spend.natAbs ≤ 100)
    {labels : List RelayLabel} (admitted : ∀ label ∈ labels, LcRelay.Admitted label)
    (relay : LcRelay) : (exec (chuteStep spend) relay labels).isSome := by
  induction labels generalizing relay with
  | nil => rfl
  | cons label rest ih =>
    have first := chuteStep_isSome within relay (admitted label List.mem_cons_self)
    obtain ⟨next, taken⟩ := Option.isSome_iff_exists.mp first
    have later := ih (fun other member => admitted other (List.mem_cons_of_mem _ member)) next
    obtain ⟨final, run⟩ := Option.isSome_iff_exists.mp later
    exact Option.isSome_iff_exists.mpr ⟨final, exec_cons_eq_some.mpr ⟨next, taken, run⟩⟩

end Tastek

end AutoDrop
