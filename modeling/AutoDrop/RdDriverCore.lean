import AutoDrop.InputMemory
import Mathlib.Algebra.Ring.Int.Defs

/-!
The fill level of the lidar driver. A frame of points is read as the position and the side
height that `get_position_state_from_cloud` finds in it; the timer may set `g_distance`
between the two readings of it in one frame. `F` and `D` are the numbers of the source's
`float` and `double`, with any arithmetic.
-/

namespace AutoDrop

open InputMemory

inductive VehiclePositionDetectState
  | vehiclePostionBegin
  | vehiclePostionMiddle
  | vehiclePostionEnd
  | vehiclePostionOut
deriving DecidableEq, Repr

structure KeySegParams (F : Type*) where
  z : F
  state : VehiclePositionDetectState

/-- The distances are those read by `vehilce_disappeared` and by `vehicle_is_full`. -/
structure RdFrame (F : Type*) where
  keySeg : KeySegParams F
  distanceAtCheck : F
  distanceAtLevel : F

/-- The settings of the ini file, the numbers of the two filters, and the conversions. What
`coefficients_` holds is left open: it is filled from memory behind a vector. -/
structure RdConfig (F D : Type*) where
  filterLength : Int
  fullRate : D
  distanceOffset : D
  bottomZ : D
  alpha : D
  coefficients : Nat → D
  widen : F → D
  narrow : D → F

structure LowPassFilter (D : Type*) where
  prevOutput : D
  initialized : Bool
deriving DecidableEq

/-- The window size of `g_sg_filter`. -/
def sgWindowSize : Nat := 11

structure RdFilters (F D : Type*) where
  lp : LowPassFilter D
  sg : List D
  fullOffsetArray : List F

structure VehicleRdDetectResult (D : Type*) where
  state : VehiclePositionDetectState
  isFull : Bool
  fullOffset : D
  sideTopZ : D

structure RdDriver (F D : Type*) where
  filters : RdFilters F D
  result : VehicleRdDetectResult D

section Filters

variable {F D : Type*} [Add F] [Div F] [Zero F] [NatCast F]
  [Add D] [Sub D] [Mul D] [Zero D] [One D]

def LowPassFilter.reset : LowPassFilter D := ⟨0, false⟩

def LowPassFilter.filter (alpha : D) (lp : LowPassFilter D) (input : D) : LowPassFilter D × D :=
  let prev := if lp.initialized then lp.prevOutput else input
  let output := alpha * input + (1 - alpha) * prev
  (⟨output, true⟩, output)

def sgProcess (coefficients : Nat → D) (window : List D) (input : D) : List D × D :=
  let pushed := pushBounded sgWindowSize window input
  if pushed.length < sgWindowSize then (pushed, input)
  else (pushed, pushed.zipIdx.foldl (fun result one => result + coefficients one.2 * one.1) 0)

def meanOf (array : List F) : F := array.foldl (· + ·) 0 / (array.length : F)

def calcFilteredFullOffset (config : RdConfig F D) (filters : RdFilters F D) (fullOffset : F) :
    RdFilters F D × F :=
  if config.filterLength = 1 then
    let (lp, ret) := filters.lp.filter config.alpha (config.widen fullOffset)
    ({ filters with lp := lp }, config.narrow ret)
  else if 1 < config.filterLength then
    let array := pushBounded config.filterLength.toNat filters.fullOffsetArray fullOffset
    ({ filters with fullOffsetArray := array }, meanOf array)
  else
    let (sg, ret) := sgProcess config.coefficients filters.sg (config.widen fullOffset)
    ({ filters with sg := sg }, config.narrow ret)

def RdFilters.initial : RdFilters F D := ⟨LowPassFilter.reset, [], []⟩

/-- The two resets that the source calls together. -/
def RdFilters.reset (filters : RdFilters F D) : RdFilters F D :=
  { filters with lp := LowPassFilter.reset, sg := [] }

end Filters

section Frames

variable {F D : Type*} [Neg F] [Add F] [Div F] [Zero F] [NatCast F]
  [Add D] [Sub D] [Mul D] [Zero D] [One D] [LT D] [DecidableLT D]

def calcXlrdZ (config : RdConfig F D) (distance : F) : D :=
  config.widen (-distance) + config.distanceOffset

def vehilceDisappeared (config : RdConfig F D) (distance : F) : Bool :=
  calcXlrdZ config distance < config.bottomZ

def rawOffset (config : RdConfig F D) (distance maxZ : F) : F :=
  config.narrow (calcXlrdZ config distance - config.widen maxZ)

def vehicleIsFull (config : RdConfig F D) (filters : RdFilters F D) (distance maxZ : F) :
    RdFilters F D × Bool × F :=
  let (filters, fullOffset) :=
    calcFilteredFullOffset config filters (rawOffset config distance maxZ)
  (filters, config.fullRate < config.widen fullOffset, fullOffset)

/-- The saved state and the side height of a detection, with what it does to the filters. -/
def pcGetState (config : RdConfig F D) (filters : RdFilters F D) (keySeg : KeySegParams F) :
    RdFilters F D × VehiclePositionDetectState × D :=
  if keySeg.state ≠ .vehiclePostionOut then (filters, keySeg.state, config.widen keySeg.z)
  else (filters.reset, keySeg.state, 0)

def processMsg (config : RdConfig F D) (driver : RdDriver F D) (frame : RdFrame F) :
    RdDriver F D :=
  let (filters, position) := pcGetState config driver.filters frame.keySeg
  let origResult := driver.result
  let position :=
    if origResult.state ≠ .vehiclePostionOut then (origResult.state, origResult.sideTopZ)
    else position
  let (filters, position) :=
    if vehilceDisappeared config frame.distanceAtCheck then
      (filters.reset, VehiclePositionDetectState.vehiclePostionOut, 0)
    else (filters, position)
  let (filters, isFull, fullOffset) :=
    vehicleIsFull config filters frame.distanceAtLevel (config.narrow position.2)
  ⟨filters, ⟨position.1, isFull, config.widen fullOffset, position.2⟩⟩

def RdDriver.start : RdDriver F D :=
  ⟨RdFilters.initial, ⟨.vehiclePostionOut, false, 0, 0⟩⟩

def RdDriver.run (config : RdConfig F D) (frames : List (RdFrame F)) : RdDriver F D :=
  frames.foldl (processMsg config) RdDriver.start

end Frames

end AutoDrop
