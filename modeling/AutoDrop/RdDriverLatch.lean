import AutoDrop.Latch
import AutoDrop.RdDriverStay

/-!
The vehicle of the saved results is a latch over the detections of the single frames, which
the distance clears.
-/

namespace AutoDrop

variable {F D : Type*}

/-- The state and the side height that other code sees. -/
def RdDriver.position (driver : RdDriver F D) : VehiclePositionDetectState × D :=
  (driver.result.state, driver.result.sideTopZ)

/-- What the points of one frame say by themselves. -/
def detection [Zero D] (config : RdConfig F D) (keySeg : KeySegParams F) :
    VehiclePositionDetectState × D :=
  if keySeg.state ≠ .vehiclePostionOut then (keySeg.state, config.widen keySeg.z)
  else (.vehiclePostionOut, 0)

section Held

variable [Neg F] [Add D] [LT D] [DecidableLT D] {config : RdConfig F D}

def latchInput (config : RdConfig F D) (frame : RdFrame F) :
    Latch.Input (VehiclePositionDetectState × D) where
  cleared := calcXlrdZ config frame.distanceAtCheck < config.bottomZ
  detected :=
    if frame.keySeg.state ≠ .vehiclePostionOut then
      some (frame.keySeg.state, config.widen frame.keySeg.z)
    else none

def heldVehicle (config : RdConfig F D) (frames : List (RdFrame F)) :
    Option (VehiclePositionDetectState × D) :=
  Latch.held (frames.map (latchInput config))

theorem heldVehicle_concat (frames : List (RdFrame F)) (frame : RdFrame F) :
    heldVehicle config (frames ++ [frame]) =
      Latch.next (heldVehicle config frames) (latchInput config frame) := by
  rw [heldVehicle, List.map_append, List.map_singleton, Latch.held_concat]
  rfl

theorem state_of_heldVehicle {frames : List (RdFrame F)} {value : VehiclePositionDetectState × D}
    (holds : heldVehicle config frames = some value) : value.1 ≠ .vehiclePostionOut := by
  obtain ⟨input, member, detected⟩ := Latch.detected_of_held holds
  obtain ⟨frame, -, rfl⟩ := List.mem_map.mp member
  simp only [latchInput, Option.ite_none_right_eq_some, Option.some.injEq] at detected
  rw [← detected.2]
  exact detected.1

end Held

section Runs

variable [Neg F] [Add F] [Div F] [Zero F] [NatCast F]
  [Add D] [Sub D] [Mul D] [Zero D] [One D] [LT D] [DecidableLT D] (config : RdConfig F D)

theorem processMsg_position (driver : RdDriver F D) (frame : RdFrame F) :
    (processMsg config driver frame).position =
      if calcXlrdZ config frame.distanceAtCheck < config.bottomZ then (.vehiclePostionOut, 0)
      else if driver.result.state ≠ .vehiclePostionOut then driver.position
      else detection config frame.keySeg := by
  by_cases gone : calcXlrdZ config frame.distanceAtCheck < config.bottomZ
  · simp [processMsg, RdDriver.position, vehilceDisappeared, vehicleIsFull, gone]
  · by_cases inside : driver.result.state ≠ .vehiclePostionOut
    · simp [processMsg, RdDriver.position, vehilceDisappeared, vehicleIsFull, gone, inside]
    · by_cases found : frame.keySeg.state ≠ .vehiclePostionOut
      · simp [processMsg, RdDriver.position, vehilceDisappeared, vehicleIsFull, gone, inside,
          detection, pcGetState, found]
      · simp only [ne_eq, Decidable.not_not] at found inside
        simp [processMsg, RdDriver.position, vehilceDisappeared, vehicleIsFull, gone, inside,
          detection, pcGetState, found]

/-- The saved results are those of the latch, and out where it holds nothing. -/
theorem run_position (frames : List (RdFrame F)) :
    (RdDriver.run config frames).position =
      (heldVehicle config frames).getD (.vehiclePostionOut, 0) := by
  induction frames using List.reverseRecOn with
  | nil => rfl
  | append_singleton frames frame ih =>
      rw [run_append, List.foldl_cons, List.foldl_nil, processMsg_position, heldVehicle_concat,
        Latch.next]
      by_cases gone : calcXlrdZ config frame.distanceAtCheck < config.bottomZ
      · simp [latchInput, gone]
      · cases held : heldVehicle config frames with
        | none =>
            rw [held, Option.getD_none] at ih
            have outside : (RdDriver.run config frames).result.state = .vehiclePostionOut :=
              congrArg Prod.fst ih
            by_cases found : frame.keySeg.state ≠ .vehiclePostionOut
            · simp [latchInput, gone, outside, detection, found]
            · simp [latchInput, gone, outside, detection, found]
        | some value =>
            rw [held, Option.getD_some] at ih
            have inside : (RdDriver.run config frames).result.state ≠ .vehiclePostionOut := by
              rw [show (RdDriver.run config frames).result.state = value.1 from congrArg Prod.fst ih]
              exact state_of_heldVehicle held
            simp [latchInput, gone, inside, ih]

theorem heldVehicle_eq_none_iff (frames : List (RdFrame F)) :
    heldVehicle config frames = none ↔
      (RdDriver.run config frames).result.state = .vehiclePostionOut := by
  have state : (RdDriver.run config frames).result.state =
      ((heldVehicle config frames).getD (.vehiclePostionOut, 0)).1 :=
    congrArg Prod.fst (run_position config frames)
  rw [state]
  cases held : heldVehicle config frames with
  | none => simp
  | some value => simp [state_of_heldVehicle held]

theorem run_concat (frames : List (RdFrame F)) (frame : RdFrame F) :
    (RdDriver.run config (frames ++ [frame])).position =
      if calcXlrdZ config frame.distanceAtCheck < config.bottomZ then (.vehiclePostionOut, 0)
      else if (RdDriver.run config frames).result.state ≠ .vehiclePostionOut then
        (RdDriver.run config frames).position
      else detection config frame.keySeg := by
  rw [run_append, List.foldl_cons, List.foldl_nil, processMsg_position]

theorem sideTopZ_of_out {frames : List (RdFrame F)}
    (outside : (RdDriver.run config frames).result.state = .vehiclePostionOut) :
    (RdDriver.run config frames).result.sideTopZ = 0 := by
  have position := run_position config frames
  rw [(heldVehicle_eq_none_iff config frames).mpr outside] at position
  exact congrArg Prod.snd position

theorem detection_of_begin {frames : List (RdFrame F)} {frame : RdFrame F}
    (outside : (RdDriver.run config frames).result.state = .vehiclePostionOut)
    (entered : (RdDriver.run config (frames ++ [frame])).result.state ≠ .vehiclePostionOut) :
    frame.keySeg.state ≠ .vehiclePostionOut ∧
      (RdDriver.run config (frames ++ [frame])).position = detection config frame.keySeg := by
  have before := (heldVehicle_eq_none_iff config frames).mpr outside
  rw [ne_eq, ← heldVehicle_eq_none_iff] at entered
  obtain ⟨value, holds⟩ := Option.ne_none_iff_exists'.mp entered
  have position := run_position config (frames ++ [frame])
  rw [holds, Option.getD_some] at position
  rw [heldVehicle_concat, before] at holds
  obtain ⟨-, detected⟩ := Latch.next_none_eq_some.mp holds
  simp only [latchInput, Option.ite_none_right_eq_some, Option.some.injEq] at detected
  refine ⟨detected.1, ?_⟩
  rw [position, ← detected.2, detection, if_pos detected.1]

theorem disappeared_of_end {frames : List (RdFrame F)} {frame : RdFrame F}
    (inside : (RdDriver.run config frames).result.state ≠ .vehiclePostionOut)
    (left : (RdDriver.run config (frames ++ [frame])).result.state = .vehiclePostionOut) :
    calcXlrdZ config frame.distanceAtCheck < config.bottomZ := by
  rw [ne_eq, ← heldVehicle_eq_none_iff] at inside
  rw [← heldVehicle_eq_none_iff, heldVehicle_concat] at left
  obtain ⟨value, holds⟩ := Option.ne_none_iff_exists'.mp inside
  rw [holds] at left
  exact of_decide_eq_true (Latch.cleared_of_next left)

theorem position_of_stay {frames more : List (RdFrame F)}
    (stay : ∀ part, part <+: more →
      (RdDriver.run config (frames ++ part)).result.state ≠ .vehiclePostionOut) :
    (RdDriver.run config (frames ++ more)).position = (RdDriver.run config frames).position := by
  have same : heldVehicle config (frames ++ more) = heldVehicle config frames := by
    rw [heldVehicle, List.map_append]
    refine Latch.held_of_stay fun part front => ?_
    obtain ⟨inputs, prefixed, rfl⟩ := List.prefix_map_iff.mp front
    have inside := stay inputs prefixed
    rwa [ne_eq, ← heldVehicle_eq_none_iff, heldVehicle, List.map_append] at inside
  rw [run_position, run_position, same]

/-- The rule of one frame, and what follows from it for the stays of a run. -/
theorem vehicle_latch (frames : List (RdFrame F)) (frame : RdFrame F) :
    (RdDriver.run config (frames ++ [frame])).position =
        (if calcXlrdZ config frame.distanceAtCheck < config.bottomZ then (.vehiclePostionOut, 0)
        else if (RdDriver.run config frames).result.state ≠ .vehiclePostionOut then
          (RdDriver.run config frames).position
        else detection config frame.keySeg) ∧
      ((RdDriver.run config frames).result.state = .vehiclePostionOut →
        (RdDriver.run config frames).result.sideTopZ = 0) ∧
      ((RdDriver.run config frames).result.state = .vehiclePostionOut →
        (RdDriver.run config (frames ++ [frame])).result.state ≠ .vehiclePostionOut →
        frame.keySeg.state ≠ .vehiclePostionOut ∧
          (RdDriver.run config (frames ++ [frame])).position = detection config frame.keySeg) ∧
      ((RdDriver.run config frames).result.state ≠ .vehiclePostionOut →
        (RdDriver.run config (frames ++ [frame])).result.state = .vehiclePostionOut →
        calcXlrdZ config frame.distanceAtCheck < config.bottomZ) ∧
      ∀ more, (∀ part, part <+: more →
          (RdDriver.run config (frames ++ part)).result.state ≠ .vehiclePostionOut) →
        (RdDriver.run config (frames ++ more)).position =
          (RdDriver.run config frames).position :=
  ⟨run_concat config frames frame, sideTopZ_of_out config, detection_of_begin config,
    disappeared_of_end config, fun _ => position_of_stay config⟩

/-- The second frame sees the end of the vehicle, and its first state is kept. -/
theorem vehicle_latch_begin :
    (RdDriver.run (flatConfig 1) ([vehicleFrame] ++ [⟨⟨2, .vehiclePostionEnd⟩, 8, 8⟩])).position =
      (.vehiclePostionBegin, 1) :=
  (vehicle_latch (flatConfig 1) [vehicleFrame] ⟨⟨2, .vehiclePostionEnd⟩, 8, 8⟩).1.trans
    (by decide +kernel)

end Runs

end AutoDrop
