import AutoDrop.RdDriverCore
import Mathlib.Algebra.Field.Rat

/-!
The fill level of one vehicle. The selected filter also takes the frames between two
vehicles, and a frame without a vehicle in its points resets two of the filters though the
vehicle is kept, so the level depends on what the filter still knows.
-/

namespace AutoDrop

open InputMemory

variable {F D : Type*}

def RdFilters.SameSelected (config : RdConfig F D) (first second : RdFilters F D) : Prop :=
  if config.filterLength = 1 then first.lp = second.lp
  else if 1 < config.filterLength then first.fullOffsetArray = second.fullOffsetArray
  else first.sg = second.sg

section Resets

variable {config : RdConfig F D}

theorem RdFilters.sameSelected_refl (filters : RdFilters F D) :
    filters.SameSelected config filters := by
  unfold SameSelected
  split
  · rfl
  · split <;> rfl

variable [Zero D]

/-- A reset brings the selected filter back, unless it is the one over the array. -/
theorem RdFilters.SameSelected.reset {first second : RdFilters F D}
    (same : first.SameSelected config second) :
    first.reset.SameSelected config
      (if 1 < config.filterLength then second else RdFilters.initial) := by
  unfold SameSelected at same ⊢
  split at same
  · rename_i one
    simp [one, RdFilters.reset, RdFilters.initial]
  · split at same
    · simp [*, RdFilters.reset]
    · simp [*, RdFilters.reset, RdFilters.initial]

end Resets

section Selected

variable [Add F] [Div F] [Zero F] [NatCast F] [Add D] [Sub D] [Mul D] [Zero D] [One D]
  {config : RdConfig F D}

/-- The selected filter from its reset state: what it holds, and its last output. -/
def filterFromReset (config : RdConfig F D) (offsets : List F) : RdFilters F D × F :=
  offsets.foldl (fun reached offset => calcFilteredFullOffset config reached.1 offset)
    (RdFilters.initial, 0)

theorem RdFilters.SameSelected.calc {first second : RdFilters F D}
    (same : first.SameSelected config second) (offset : F) :
    (calcFilteredFullOffset config first offset).1.SameSelected config
        (calcFilteredFullOffset config second offset).1 ∧
      (calcFilteredFullOffset config first offset).2 =
        (calcFilteredFullOffset config second offset).2 := by
  unfold SameSelected at same ⊢
  unfold calcFilteredFullOffset
  split at same
  · simp [*]
  · split at same <;> simp [*]

theorem filterFromReset_concat (offsets : List F) (offset : F) :
    filterFromReset config (offsets ++ [offset]) =
      calcFilteredFullOffset config (filterFromReset config offsets).1 offset := by
  rw [filterFromReset, List.foldl_concat]
  rfl

theorem filterFromReset_array (several : 1 < config.filterLength) (offsets : List F) :
    (filterFromReset config offsets).1.fullOffsetArray =
      offsets.rtake config.filterLength.toNat := by
  have other : config.filterLength ≠ 1 := by omega
  rw [← foldl_pushBounded]
  induction offsets using List.reverseRecOn with
  | nil => rfl
  | append_singleton offsets offset ih =>
      rw [filterFromReset_concat, List.foldl_concat, ← ih]
      simp [calcFilteredFullOffset, several, other]

theorem filterFromReset_sg (few : config.filterLength < 1) (offsets : List F) :
    (filterFromReset config offsets).1.sg = (offsets.map config.widen).rtake sgWindowSize := by
  have other : config.filterLength ≠ 1 := by omega
  have single : ¬1 < config.filterLength := by omega
  rw [← foldl_pushBounded]
  induction offsets using List.reverseRecOn with
  | nil => rfl
  | append_singleton offsets offset ih =>
      rw [filterFromReset_concat, List.map_append, List.map_singleton, List.foldl_concat, ← ih]
      simp only [calcFilteredFullOffset, single, other, if_false]
      unfold sgProcess
      dsimp only
      split <;> rfl

theorem filterFromReset_mean (several : 1 < config.filterLength) {offsets : List F}
    (nonempty : offsets ≠ []) : (filterFromReset config offsets).2 =
      meanOf (offsets.rtake config.filterLength.toNat) := by
  have other : config.filterLength ≠ 1 := by omega
  obtain ⟨before, last, rfl⟩ := (List.eq_nil_or_concat' offsets).resolve_left nonempty
  rw [← filterFromReset_array several, filterFromReset_concat]
  simp [calcFilteredFullOffset, several, other]

def sgOutput (config : RdConfig F D) (window : List D) (last : Option D) : D :=
  if window.length < sgWindowSize then last.getD 0
  else window.zipIdx.foldl (fun result one => result + config.coefficients one.2 * one.1) 0

omit [Add F] [Div F] [Zero F] [NatCast F] [Sub D] [One D] in
theorem sgOutput_short {inputs : List D} (short : inputs.length < sgWindowSize) {last : Option D} :
    sgOutput config (inputs.rtake sgWindowSize) last = last.getD 0 := by
  refine if_pos ?_
  simp only [List.rtake, List.length_drop]
  omega

theorem filterFromReset_process (few : config.filterLength < 1) {offsets : List F}
    (nonempty : offsets ≠ []) : (filterFromReset config offsets).2 =
      config.narrow (sgOutput config ((offsets.map config.widen).rtake sgWindowSize)
        (offsets.getLast?.map config.widen)) := by
  have other : config.filterLength ≠ 1 := by omega
  have single : ¬1 < config.filterLength := by omega
  obtain ⟨before, last, rfl⟩ := (List.eq_nil_or_concat' offsets).resolve_left nonempty
  have window := filterFromReset_sg few (before ++ [last])
  rw [← window, filterFromReset_concat]
  simp only [calcFilteredFullOffset, single, other, if_false]
  unfold sgProcess sgOutput
  dsimp only
  split <;> simp [*]

end Selected

section Runs

variable [Neg F] [Add F] [Div F] [Zero F] [NatCast F]
  [Add D] [Sub D] [Mul D] [Zero D] [One D] [LT D] [DecidableLT D] {config : RdConfig F D}

/-- Whether a frame resets the selected filter before it is fed. -/
def resets (config : RdConfig F D) (frame : RdFrame F) : Bool :=
  decide (config.filterLength ≤ 1) &&
    (decide (frame.keySeg.state = .vehiclePostionOut) ||
      vehilceDisappeared config frame.distanceAtCheck)

def fedOffset (config : RdConfig F D) (driver : RdDriver F D) (frame : RdFrame F) : F :=
  rawOffset config frame.distanceAtLevel
    (config.narrow (processMsg config driver frame).result.sideTopZ)

def feedsFrom (config : RdConfig F D) : RdDriver F D → List (RdFrame F) → List (Bool × F)
  | _, [] => []
  | driver, frame :: rest =>
      (resets config frame, fedOffset config driver frame) ::
        feedsFrom config (processMsg config driver frame) rest

theorem processMsg_filters (config : RdConfig F D) (driver : RdDriver F D) (frame : RdFrame F) :
    let filters :=
      if frame.keySeg.state = .vehiclePostionOut ∨
          vehilceDisappeared config frame.distanceAtCheck = true then driver.filters.reset
      else driver.filters
    let fed := calcFilteredFullOffset config filters (fedOffset config driver frame)
    (processMsg config driver frame).filters = fed.1 ∧
      (processMsg config driver frame).result.fullOffset = config.widen fed.2 := by
  by_cases out : frame.keySeg.state = .vehiclePostionOut
  · by_cases gone : vehilceDisappeared config frame.distanceAtCheck = true
    · simp [processMsg, fedOffset, pcGetState, vehicleIsFull, out, gone, RdFilters.reset]
    · simp [processMsg, fedOffset, pcGetState, vehicleIsFull, out, gone]
  · by_cases gone : vehilceDisappeared config frame.distanceAtCheck = true
    · simp [processMsg, fedOffset, pcGetState, vehicleIsFull, out, gone]
    · simp [processMsg, fedOffset, pcGetState, vehicleIsFull, out, gone]

theorem feedsFrom_append (driver : RdDriver F D) (before after : List (RdFrame F)) :
    feedsFrom config driver (before ++ after) = feedsFrom config driver before ++
      feedsFrom config (before.foldl (processMsg config) driver) after := by
  induction before generalizing driver with
  | nil => rfl
  | cons frame rest ih => simp [feedsFrom, ih]

theorem run_append (before after : List (RdFrame F)) :
    RdDriver.run config (before ++ after) =
      after.foldl (processMsg config) (RdDriver.run config before) :=
  List.foldl_append

def keptOffsets (config : RdConfig F D) (frames : List (RdFrame F)) : List F :=
  sinceReset (feedsFrom config RdDriver.start frames)

omit [Add F] [Div F] [Zero F] [NatCast F] [Sub D] [Mul D] [Zero D] [One D] in
theorem resets_iff {frame : RdFrame F} : resets config frame = true ↔ config.filterLength ≤ 1 ∧
    (frame.keySeg.state = .vehiclePostionOut ∨
      vehilceDisappeared config frame.distanceAtCheck = true) := by
  simp [resets]

omit [Add F] [Div F] [Zero F] [NatCast F] [Sub D] [Mul D] [One D] in
theorem RdFilters.SameSelected.atFrame {first second : RdFilters F D}
    (same : first.SameSelected config second) (frame : RdFrame F) :
    (if frame.keySeg.state = .vehiclePostionOut ∨
        vehilceDisappeared config frame.distanceAtCheck = true then first.reset
      else first).SameSelected config
        (if resets config frame then RdFilters.initial else second) := by
  have reset := same.reset
  split
  · rename_i triggered
    by_cases several : 1 < config.filterLength
    · have kept : ¬resets config frame = true := fun yes => by
        have few := (resets_iff.mp yes).1
        omega
      rwa [if_neg kept, if_pos several] at *
    · rwa [if_pos (resets_iff.mpr ⟨by omega, triggered⟩), if_neg several] at *
  · rename_i quiet
    rwa [if_neg fun yes => quiet (resets_iff.mp yes).2]

/-- In every run the selected filter stands where its kept offsets take it from its reset
state. -/
theorem run_selected (frames : List (RdFrame F)) :
    (RdDriver.run config frames).filters.SameSelected config
        (filterFromReset config (keptOffsets config frames)).1 ∧
      (frames ≠ [] → (RdDriver.run config frames).result.fullOffset =
        config.widen (filterFromReset config (keptOffsets config frames)).2) := by
  induction frames using List.reverseRecOn with
  | nil => exact ⟨RdFilters.sameSelected_refl _, fun nonempty => absurd rfl nonempty⟩
  | append_singleton frames frame ih =>
      obtain ⟨reached, level⟩ := processMsg_filters config (RdDriver.run config frames) frame
      have kept : keptOffsets config (frames ++ [frame]) =
          (if resets config frame then [] else keptOffsets config frames) ++
            [fedOffset config (RdDriver.run config frames) frame] := by
        rw [keptOffsets, feedsFrom_append]
        exact sinceReset_concat _ _
      have before := ih.1.atFrame frame
      have started : (filterFromReset config
          (if resets config frame then [] else keptOffsets config frames)).1 =
            if resets config frame then RdFilters.initial
            else (filterFromReset config (keptOffsets config frames)).1 := by
        split <;> rfl
      rw [← started] at before
      have fed := before.calc (fedOffset config (RdDriver.run config frames) frame)
      rw [run_append, List.foldl_cons, List.foldl_nil, kept, filterFromReset_concat, reached, level]
      exact ⟨fed.1, fun _ => congrArg config.widen fed.2⟩

def stayOffset (config : RdConfig F D) (first frame : RdFrame F) : F :=
  rawOffset config frame.distanceAtLevel (config.narrow (config.widen first.keySeg.z))

def stayOffsets (config : RdConfig F D) : List (RdFrame F) → List F
  | [] => []
  | first :: rest => (first :: rest).map (stayOffset config first)

/-- A stay up to one of its frames: behind a frame without a vehicle, or from the start, all
saved results have a vehicle. -/
structure Stay (config : RdConfig F D) (before frames : List (RdFrame F)) : Prop where
  outside : (RdDriver.run config before).result.state = .vehiclePostionOut
  nonempty : frames ≠ []
  inside : ∀ reached, reached ≠ [] → reached <+: frames →
    (RdDriver.run config (before ++ reached)).result.state ≠ .vehiclePostionOut

instance (config : RdConfig F D) (before frames : List (RdFrame F)) :
    Decidable (Stay config before frames) :=
  decidable_of_iff
    ((RdDriver.run config before).result.state = .vehiclePostionOut ∧ frames.isEmpty = false ∧
      ∀ reached ∈ frames.inits, reached.isEmpty = false →
        (RdDriver.run config (before ++ reached)).result.state ≠ .vehiclePostionOut)
    ⟨fun ⟨outside, nonempty, inside⟩ => ⟨outside, List.isEmpty_eq_false_iff.mp nonempty,
        fun reached nonempty front =>
          inside reached ((List.mem_inits _ _).mpr front) (List.isEmpty_eq_false_iff.mpr nonempty)⟩,
      fun stay => ⟨stay.outside, List.isEmpty_eq_false_iff.mpr stay.nonempty,
        fun reached front nonempty => stay.inside reached
          (List.isEmpty_eq_false_iff.mp nonempty) ((List.mem_inits _ _).mp front)⟩⟩

variable {driver : RdDriver F D} {frame : RdFrame F}

theorem processMsg_enter (outside : driver.result.state = .vehiclePostionOut)
    (inside : (processMsg config driver frame).result.state ≠ .vehiclePostionOut) :
    (processMsg config driver frame).result.sideTopZ = config.widen frame.keySeg.z := by
  by_cases gone : vehilceDisappeared config frame.distanceAtCheck = true
  · simp [processMsg, vehicleIsFull, gone] at inside
  · by_cases out : frame.keySeg.state = .vehiclePostionOut
    · simp [processMsg, vehicleIsFull, gone, outside, pcGetState, out] at inside
    · simp [processMsg, vehicleIsFull, gone, outside, pcGetState, out]

theorem processMsg_stay (before : driver.result.state ≠ .vehiclePostionOut)
    (inside : (processMsg config driver frame).result.state ≠ .vehiclePostionOut) :
    (processMsg config driver frame).result.sideTopZ = driver.result.sideTopZ := by
  by_cases gone : vehilceDisappeared config frame.distanceAtCheck = true
  · simp [processMsg, vehicleIsFull, gone] at inside
  · simp [processMsg, vehicleIsFull, gone, before]

theorem feedsFrom_stay {side : D} {frames : List (RdFrame F)}
    (before : driver.result.state ≠ .vehiclePostionOut) (latched : driver.result.sideTopZ = side)
    (inside : ∀ reached, reached <+: frames →
      (reached.foldl (processMsg config) driver).result.state ≠ .vehiclePostionOut) :
    (feedsFrom config driver frames).map Prod.snd =
      frames.map fun frame => rawOffset config frame.distanceAtLevel (config.narrow side) := by
  induction frames generalizing driver with
  | nil => rfl
  | cons frame rest ih =>
      have next := inside [frame] ⟨rest, rfl⟩
      have kept := (processMsg_stay before next).trans latched
      rw [feedsFrom, List.map_cons, List.map_cons, fedOffset, kept]
      exact congrArg _ (ih next kept fun reached front =>
        inside (frame :: reached) (List.cons_prefix_cons.mpr ⟨rfl, front⟩))

theorem Stay.feeds {before frames : List (RdFrame F)} (stay : Stay config before frames) :
    (feedsFrom config (RdDriver.run config before) frames).map Prod.snd =
      stayOffsets config frames := by
  cases frames with
  | nil => exact absurd rfl stay.nonempty
  | cons first rest =>
      have entered := stay.inside [first] (by simp) ⟨rest, rfl⟩
      rw [run_append, List.foldl_cons, List.foldl_nil] at entered
      have side := processMsg_enter stay.outside entered
      have later := feedsFrom_stay entered side fun reached front => by
        have inside := stay.inside (first :: reached) (by simp)
          (List.cons_prefix_cons.mpr ⟨rfl, front⟩)
        rwa [run_append] at inside
      rw [feedsFrom, List.map_cons, later, fedOffset, side]
      rfl

/-- The number of frames since the one that last reset the selected filter, this included. -/
def framesKept (config : RdConfig F D) (frames : List (RdFrame F)) : Nat :=
  (sinceReset (frames.map fun frame => (resets config frame, frame))).length

/-- With so many frames kept, the selected filter knows what it would know of the latest
frames alone: all of them, as many as the mean takes, or whether the window is full. -/
def KeepsOnly (config : RdConfig F D) (kept latest : Nat) : Prop :=
  if config.filterLength = 1 then kept = latest
  else if 1 < config.filterLength then
    min kept config.filterLength.toNat = min latest config.filterLength.toNat
  else kept < sgWindowSize ↔ latest < sgWindowSize

instance (config : RdConfig F D) (kept latest : Nat) : Decidable (KeepsOnly config kept latest) :=
  inferInstanceAs (Decidable (ite _ _ (ite _ _ _)))

def Covers (config : RdConfig F D) (before frames : List (RdFrame F)) : Prop :=
  KeepsOnly config (framesKept config (before ++ frames)) frames.length

instance (config : RdConfig F D) (before frames : List (RdFrame F)) :
    Decidable (Covers config before frames) :=
  inferInstanceAs (Decidable (KeepsOnly _ _ _))

theorem length_keptOffsets (frames : List (RdFrame F)) :
    (keptOffsets config frames).length = framesKept config frames := by
  refine length_sinceReset ?_
  suffices flags : ∀ driver : RdDriver F D, (feedsFrom config driver frames).map Prod.fst =
      frames.map (resets config) by
    rw [flags, List.map_map]
    rfl
  induction frames with
  | nil => exact fun _ => rfl
  | cons frame rest ih => exact fun driver => congrArg _ (ih _)

theorem keptOffsets_ne_nil (config : RdConfig F D) (before : List (RdFrame F))
    {frames : List (RdFrame F)} (nonempty : frames ≠ []) :
    keptOffsets config (before ++ frames) ≠ [] := by
  obtain ⟨earlier, last, rfl⟩ := (List.eq_nil_or_concat' frames).resolve_left nonempty
  rw [keptOffsets, ← List.append_assoc, feedsFrom_append]
  intro empty
  have length := congrArg List.length empty
  simp [feedsFrom, sinceReset_concat] at length

end Runs

def flatConfig (filterLength : Int) : RdConfig ℚ ℚ :=
  ⟨filterLength, 4 / 5, 10, 0, 1 / 20, fun _ => 1 / 11, id, id⟩

def emptyFrame : RdFrame ℚ := ⟨⟨0, .vehiclePostionOut⟩, 8, 8⟩

def vehicleFrame : RdFrame ℚ := ⟨⟨1, .vehiclePostionBegin⟩, 8, 8⟩

end AutoDrop
