import AutoDrop.LabelledRun
import Mathlib.Algebra.Ring.Nat

/-!
The cloud that the lidar driver shows, in daemon mode. The thread of the lidar collects the
parts of a frame in `g_cur_cloud` and moves it to `g_output_cloud`, which the timer and
`save_ply_file` read. A null pointer is `none`. Both pointers change hands under one lock, so
a frame is one step; `processed` counts the frames and `handed` logs the clouds that
`get_cur_cloud` returned.
-/

namespace AutoDrop

open LabelledRun

structure PcAfterSplit (P : Type*) where
  legalSide : List P
  illegalSide : List P
  content : List P

inductive DriverPhase
  | created
  | failed
  | running
deriving DecidableEq

structure CloudDriver (P : Type*) where
  phase : DriverPhase
  curCloud : Option (List P)
  outputCloud : Option (List P)
  updateCounter : Nat
  processed : Nat
  handed : List (List P)
  nullRead : Bool

inductive CloudEvent (P : Type*)
  | start (driverStarted : Bool)
  | processMsg (frame : Option (PcAfterSplit P))
  | timer
  | savePlyFile

namespace CloudDriver

variable {P : Type*}

def initial : CloudDriver P where
  phase := .created
  curCloud := none
  outputCloud := none
  updateCounter := 0
  processed := 0
  handed := []
  nullRead := false

def putCloud (driver : CloudDriver P) (cloud : List P) : CloudDriver P :=
  { driver with curCloud := driver.curCloud.map (· ++ cloud) }

def updateCurCloud (driver : CloudDriver P) : CloudDriver P :=
  { driver with outputCloud := driver.curCloud, curCloud := some [] }

def getCurCloud (driver : CloudDriver P) : CloudDriver P :=
  match driver.outputCloud with
  | none => { driver with nullRead := true }
  | some cloud => { driver with handed := driver.handed ++ [cloud] }

def processMsg (driver : CloudDriver P) : Option (PcAfterSplit P) → CloudDriver P
  | none => driver
  | some frame =>
      let driver := driver.putCloud frame.content
      let driver := driver.putCloud frame.legalSide
      let driver := driver.putCloud frame.illegalSide
      { driver.updateCurCloud with processed := driver.processed + 1 }

def serialPc (driver : CloudDriver P) : CloudDriver P :=
  let driver := { driver with updateCounter := driver.updateCounter + 1 }
  if 5 ≤ driver.updateCounter then { driver.getCurCloud with updateCounter := 0 } else driver

/-- Requests and timers are served after `start`; a null pointer that was read ends the run. -/
def step (driver : CloudDriver P) (event : CloudEvent P) : Option (CloudDriver P) :=
  if driver.nullRead then none
  else
    match event with
    | .start driverStarted =>
        if driver.phase = .created then
          some { driver with phase := if driverStarted then .running else .failed }
        else none
    | .processMsg frame => if driver.phase = .running then some (driver.processMsg frame) else none
    | .timer => if driver.phase = .running then some driver.serialPc else none
    | .savePlyFile => if driver.phase = .created then none else some driver.getCurCloud

/-- Two frames were processed before a cloud is asked for. -/
def ReadsLate (driver : CloudDriver P) : CloudEvent P → Prop
  | .start _ => True
  | .processMsg _ => True
  | .timer => 5 ≤ driver.updateCounter + 1 → 2 ≤ driver.processed
  | .savePlyFile => 2 ≤ driver.processed

/-- The first frame moves a null pointer, so each pointer lags one frame behind the other. -/
structure Filled (driver : CloudDriver P) : Prop where
  cur : driver.curCloud.isSome ↔ 1 ≤ driver.processed
  output : driver.outputCloud.isSome ↔ 2 ≤ driver.processed
  alive : driver.nullRead = false

theorem initial_filled : Filled (initial : CloudDriver P) where
  cur := by simp [initial]
  output := by simp [initial]
  alive := rfl

variable {driver next : CloudDriver P} {event : CloudEvent P}

theorem Filled.getCurCloud (filled : Filled driver) (late : 2 ≤ driver.processed) :
    Filled driver.getCurCloud := by
  have set := filled.output.mpr late
  unfold CloudDriver.getCurCloud
  split
  · rename_i null
    rw [null] at set
    cases set
  · exact ⟨filled.cur, filled.output, filled.alive⟩

theorem late_of_getCurCloud (filled : Filled driver)
    (alive : driver.getCurCloud.nullRead = false) : 2 ≤ driver.processed := by
  apply filled.output.mp
  cases output : driver.outputCloud with
  | none => simp [CloudDriver.getCurCloud, output] at alive
  | some cloud => rfl

theorem Filled.processMsg (filled : Filled driver) (frame : Option (PcAfterSplit P)) :
    Filled (driver.processMsg frame) := by
  cases frame with
  | none => exact filled
  | some frame =>
      constructor
      · simp [CloudDriver.processMsg, updateCurCloud]
      · have cur := filled.cur
        simp only [CloudDriver.processMsg, updateCurCloud, putCloud, Option.isSome_map, cur]
        exact Nat.succ_le_succ_iff.symm
      · exact filled.alive

theorem Filled.serialPc (filled : Filled driver)
    (late : 5 ≤ driver.updateCounter + 1 → 2 ≤ driver.processed) : Filled driver.serialPc := by
  have counted : Filled { driver with updateCounter := driver.updateCounter + 1 } :=
    ⟨filled.cur, filled.output, filled.alive⟩
  unfold CloudDriver.serialPc
  dsimp only
  split
  · rename_i due
    have read := counted.getCurCloud (late due)
    exact ⟨read.cur, read.output, read.alive⟩
  · exact counted

theorem late_of_serialPc (filled : Filled driver) (alive : driver.serialPc.nullRead = false)
    (due : 5 ≤ driver.updateCounter + 1) : 2 ≤ driver.processed := by
  have counted : Filled { driver with updateCounter := driver.updateCounter + 1 } :=
    ⟨filled.cur, filled.output, filled.alive⟩
  unfold CloudDriver.serialPc at alive
  dsimp only at alive
  rw [if_pos due] at alive
  have late := late_of_getCurCloud counted alive
  exact late

theorem step_cases (alive : driver.nullRead = false) (taken : driver.step event = some next) :
    (∃ driverStarted, event = .start driverStarted ∧ driver.phase = .created ∧
        next = { driver with phase := if driverStarted then .running else .failed }) ∨
      (∃ frame, event = .processMsg frame ∧ driver.phase = .running ∧
        next = driver.processMsg frame) ∨
      (event = .timer ∧ driver.phase = .running ∧ next = driver.serialPc) ∨
      (event = .savePlyFile ∧ driver.phase ≠ .created ∧ next = driver.getCurCloud) := by
  unfold CloudDriver.step at taken
  rw [if_neg (by simp [alive])] at taken
  cases event with
  | start driverStarted =>
      simp only [Option.ite_none_right_eq_some, Option.some.injEq] at taken
      exact .inl ⟨driverStarted, rfl, taken.1, taken.2.symm⟩
  | processMsg frame =>
      simp only [Option.ite_none_right_eq_some, Option.some.injEq] at taken
      exact .inr (.inl ⟨frame, rfl, taken.1, taken.2.symm⟩)
  | timer =>
      simp only [Option.ite_none_right_eq_some, Option.some.injEq] at taken
      exact .inr (.inr (.inl ⟨rfl, taken.1, taken.2.symm⟩))
  | savePlyFile =>
      simp only [Option.ite_none_left_eq_some, Option.some.injEq] at taken
      exact .inr (.inr (.inr ⟨rfl, taken.1, taken.2.symm⟩))

theorem Filled.step (filled : Filled driver) (late : ReadsLate driver event)
    (taken : driver.step event = some next) : Filled next := by
  rcases step_cases filled.alive taken with
    ⟨driverStarted, -, -, rfl⟩ | ⟨frame, -, -, rfl⟩ | ⟨rfl, -, rfl⟩ | ⟨rfl, -, rfl⟩
  · exact ⟨filled.cur, filled.output, filled.alive⟩
  · exact filled.processMsg frame
  · exact filled.serialPc late
  · exact filled.getCurCloud late

theorem readsLate_of_step (filled : Filled driver) (taken : driver.step event = some next)
    (alive : next.nullRead = false) : ReadsLate driver event := by
  rcases step_cases filled.alive taken with
    ⟨driverStarted, rfl, -, -⟩ | ⟨frame, rfl, -, -⟩ | ⟨rfl, -, rfl⟩ | ⟨rfl, -, rfl⟩
  · trivial
  · trivial
  · exact late_of_serialPc filled alive
  · exact late_of_getCurCloud filled alive

/-- No null pointer is read in a run exactly if all that read come behind two frames. -/
theorem always_alive_iff {events : List (CloudEvent P)} {final : CloudDriver P}
    (run : exec step initial events = some final) :
    Always step (fun driver => driver.nullRead = false) initial events ↔
      Meets step ReadsLate initial events :=
  always_iff_meets (fun _ => Filled.alive) (fun _ _ _ => Filled.step)
    (fun _ _ _ => readsLate_of_step) initial_filled run

def oneFrame : Option (PcAfterSplit Unit) := some ⟨[()], [], []⟩

theorem always_alive_iff_twoFrames :
    Always step (fun driver => driver.nullRead = false) (initial : CloudDriver Unit)
      [.start true, .processMsg oneFrame, .timer, .processMsg oneFrame, .savePlyFile] :=
  (always_alive_iff rfl).mpr (by
    simp [Meets, ReadsLate, step, initial, processMsg, oneFrame, putCloud, updateCurCloud,
      serialPc])

/-- A second of ticks without a frame, and a request behind the first frame. -/
theorem alive_fails :
    (∃ final, exec step (initial : CloudDriver Unit)
      [.start true, .timer, .timer, .timer, .timer, .timer] = some final ∧
        final.nullRead = true) ∧
    ∃ final, exec step (initial : CloudDriver Unit)
      [.start true, .processMsg oneFrame, .savePlyFile] = some final ∧ final.nullRead = true :=
  ⟨⟨_, rfl, rfl⟩, _, rfl, rfl⟩

end CloudDriver

end AutoDrop
