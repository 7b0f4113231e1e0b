import AutoDrop.LabelledRun
import Mathlib.Algebra.Ring.Nat
import Mathlib.Data.List.Nodup
import Mathlib.Data.List.Perm.Subperm
import Mathlib.Logic.Function.Basic

/-!
The buffers that take point clouds from the thread of the lidar to the thread that processes them,
and back. A buffer is a number, `points` is what it holds, and `full` is the pointer that
`save_ply_file` follows in a third thread. The frames that were completed, queued and turned into
clouds are logged, with the points that were there when the pointer was set.
-/

namespace AutoDrop

open LabelledRun

inductive LidarPhase
  | filling (cloud : Nat)
  -- the size of the queue has been read
  | checked (cloud : Nat) (crowded : Bool)
  | returned
deriving DecidableEq

inductive ProcessPhase (P : Type)
  | waiting
  | taken (msg : Nat)
  | reading (msg : Nat) (oneFrame : List P) (i : Nat)
  | done (msg : Nat)

structure CloudBuffers (P : Type) where
  freeCloudQueue : List Nat
  stuffedCloudQueue : List Nat
  -- the next buffer that is made
  fresh : Nat
  points : Nat → List P
  lidar : LidarPhase
  process : ProcessPhase P
  full : Option Nat
  -- since the pointer was set, its buffer was handed to the lidar
  reused : Bool
  split : List (List P)
  accepted : List (List P)
  processed : List (List P)
  saved : List P

inductive BufferEvent (P : Type)
  | point (p : P)
  | overflow
  | splitFrame
  | returnCloud
  | getCloud
  | popWait
  | saveFullCloud
  | makeCloud
  | pushFree
deriving DecidableEq

/-! The buffers that a thread holds. -/

def LidarPhase.buffers : LidarPhase → List Nat
  | .filling cloud => [cloud]
  | .checked cloud _ => [cloud]
  | .returned => []

def ProcessPhase.buffers {P : Type} : ProcessPhase P → List Nat
  | .waiting => []
  | .taken msg => [msg]
  | .reading msg _ _ => [msg]
  | .done msg => [msg]

/-- The buffer whose cloud is still to be made. -/
def ProcessPhase.pending {P : Type} : ProcessPhase P → List Nat
  | .waiting => []
  | .taken msg => [msg]
  | .reading msg _ _ => [msg]
  | .done _ => []

/-- The frame that is complete and not yet queued or dropped. -/
def LidarPhase.finished {P : Type} (points : Nat → List P) : LidarPhase → List (List P)
  | .filling _ => []
  | .checked cloud _ => [points cloud]
  | .returned => []

namespace CloudBuffers

variable {P : Type}

def cloudPointMax : Nat := 1000000

/-- `init` has taken a first buffer from the empty queue. -/
def initial : CloudBuffers P where
  freeCloudQueue := []
  stuffedCloudQueue := []
  fresh := 1
  points := fun _ => []
  lidar := .filling 0
  process := .waiting
  full := none
  reused := false
  split := []
  accepted := []
  processed := []
  saved := []

/-- `getPointCloud`: a buffer from the queue or a new one, emptied. -/
def getPointCloud (state : CloudBuffers P) : CloudBuffers P :=
  match state.freeCloudQueue with
  | cloud :: rest =>
      { state with
        freeCloudQueue := rest
        points := Function.update state.points cloud []
        lidar := .filling cloud
        reused := state.reused || decide (state.full = some cloud) }
  | [] =>
      { state with
        fresh := state.fresh + 1
        points := Function.update state.points state.fresh []
        lidar := .filling state.fresh }

/-- One step of a thread. `legal` is the test on the intensity of a point. -/
def step (legal : P → Bool) (state : CloudBuffers P) (event : BufferEvent P) :
    Option (CloudBuffers P) :=
  match event, state.lidar, state.process with
  | .point p, .filling cloud, _ =>
      some { state with points := Function.update state.points cloud (state.points cloud ++ [p]) }
  | .overflow, .filling cloud, _ =>
      if cloudPointMax < (state.points cloud).length then
        some { state with points := Function.update state.points cloud [] }
      else none
  | .splitFrame, .filling cloud, _ =>
      if 0 < (state.points cloud).length then
        some
          { state with
            lidar := .checked cloud (decide (1 < state.stuffedCloudQueue.length))
            split := state.split ++ [state.points cloud] }
      else none
  | .returnCloud, .checked cloud crowded, _ =>
      if crowded then some { state with lidar := .returned }
      else
        some
          { state with
            lidar := .returned
            stuffedCloudQueue := state.stuffedCloudQueue ++ [cloud]
            accepted := state.accepted ++ [state.points cloud] }
  | .getCloud, .returned, _ => some state.getPointCloud
  | .popWait, _, .waiting =>
      match state.stuffedCloudQueue with
      | [] => none
      | msg :: rest => some { state with stuffedCloudQueue := rest, process := .taken msg }
  | .saveFullCloud, _, .taken msg =>
      some
        { state with
          full := some msg
          reused := false
          saved := state.points msg
          process := .reading msg [] 0 }
  | .makeCloud, _, .reading msg oneFrame i =>
      match (state.points msg)[i]? with
      | some p =>
          some
            { state with
              process := .reading msg (if legal p then oneFrame ++ [p] else oneFrame) (i + 1) }
      | none =>
          some { state with process := .done msg, processed := state.processed ++ [oneFrame] }
  | .pushFree, _, .done msg =>
      some
        { state with
          freeCloudQueue := state.freeCloudQueue ++ [msg]
          process := .waiting }
  | _, _, _ => none

/-- Only `save_full_cloud` sets the pointer and what was saved, and nothing else takes back that
the buffer went into use again. -/
theorem step_pointer {legal : P → Bool} {state next : CloudBuffers P} {event : BufferEvent P}
    (taken : step legal state event = some next) :
    (event = .saveFullCloud ∧ ∃ msg, next.full = some msg) ∨
      (event ≠ .saveFullCloud ∧ next.full = state.full ∧ next.saved = state.saved ∧
        (next.reused = false → state.reused = false)) := by
  unfold step at taken
  split at taken
  · exact .inr ⟨nofun, Option.some.inj taken ▸ ⟨rfl, rfl, id⟩⟩
  · split at taken
    · exact .inr ⟨nofun, Option.some.inj taken ▸ ⟨rfl, rfl, id⟩⟩
    · cases taken
  · split at taken
    · exact .inr ⟨nofun, Option.some.inj taken ▸ ⟨rfl, rfl, id⟩⟩
    · cases taken
  · split at taken
    · exact .inr ⟨nofun, Option.some.inj taken ▸ ⟨rfl, rfl, id⟩⟩
    · exact .inr ⟨nofun, Option.some.inj taken ▸ ⟨rfl, rfl, id⟩⟩
  · refine .inr ⟨nofun, Option.some.inj taken ▸ ?_⟩
    unfold getPointCloud
    split
    · exact ⟨rfl, rfl, fun unused => (Bool.or_eq_false_iff.mp unused).1⟩
    · exact ⟨rfl, rfl, id⟩
  · split at taken
    · cases taken
    · exact .inr ⟨nofun, Option.some.inj taken ▸ ⟨rfl, rfl, id⟩⟩
  · exact .inl ⟨rfl, Option.some.inj taken ▸ ⟨_, rfl⟩⟩
  · split at taken
    · exact .inr ⟨nofun, Option.some.inj taken ▸ ⟨rfl, rfl, id⟩⟩
    · exact .inr ⟨nofun, Option.some.inj taken ▸ ⟨rfl, rfl, id⟩⟩
  · exact .inr ⟨nofun, Option.some.inj taken ▸ ⟨rfl, rfl, id⟩⟩
  · cases taken

/-- What a step does, and where. -/
inductive Moves (legal : P → Bool) (state : CloudBuffers P) : CloudBuffers P → Prop
  | write {cloud : Nat} (frame : List P) (filling : state.lidar = .filling cloud) :
      Moves legal state { state with points := Function.update state.points cloud frame }
  | split {cloud : Nat} (filling : state.lidar = .filling cloud) :
      Moves legal state
        { state with
          lidar := .checked cloud (decide (1 < state.stuffedCloudQueue.length))
          split := state.split ++ [state.points cloud] }
  | drop {cloud : Nat} (checked : state.lidar = .checked cloud true) :
      Moves legal state { state with lidar := .returned }
  | push {cloud : Nat} (checked : state.lidar = .checked cloud false) :
      Moves legal state
        { state with
          lidar := .returned
          stuffedCloudQueue := state.stuffedCloudQueue ++ [cloud]
          accepted := state.accepted ++ [state.points cloud] }
  | get (returned : state.lidar = .returned) : Moves legal state state.getPointCloud
  | pop {msg : Nat} {rest : List Nat} (waiting : state.process = .waiting)
      (stuffed : state.stuffedCloudQueue = msg :: rest) :
      Moves legal state { state with stuffedCloudQueue := rest, process := .taken msg }
  | save {msg : Nat} (taken : state.process = .taken msg) :
      Moves legal state
        { state with
          full := some msg
          reused := false
          saved := state.points msg
          process := .reading msg [] 0 }
  | read {msg i : Nat} {oneFrame : List P} {p : P}
      (reading : state.process = .reading msg oneFrame i)
      (there : (state.points msg)[i]? = some p) :
      Moves legal state
        { state with
          process := .reading msg (if legal p then oneFrame ++ [p] else oneFrame) (i + 1) }
  | finish {msg i : Nat} {oneFrame : List P} (reading : state.process = .reading msg oneFrame i)
      (behind : (state.points msg)[i]? = none) :
      Moves legal state
        { state with process := .done msg, processed := state.processed ++ [oneFrame] }
  | recycle {msg : Nat} (done : state.process = .done msg) :
      Moves legal state
        { state with freeCloudQueue := state.freeCloudQueue ++ [msg], process := .waiting }

variable {legal : P → Bool} {state next : CloudBuffers P}

theorem moves_of_step {event : BufferEvent P} (taken : step legal state event = some next) :
    Moves legal state next := by
  unfold step at taken
  split at taken
  · next p cloud filling => exact Option.some.inj taken ▸ .write _ filling
  · next cloud filling =>
    split at taken
    · exact Option.some.inj taken ▸ .write _ filling
    · cases taken
  · next cloud filling =>
    split at taken
    · exact Option.some.inj taken ▸ .split filling
    · cases taken
  · next cloud crowded checked =>
    cases crowded with
    | true => exact Option.some.inj taken ▸ .drop checked
    | false => exact Option.some.inj taken ▸ .push checked
  · next returned => exact Option.some.inj taken ▸ .get returned
  · next waiting =>
    split at taken
    · cases taken
    · next msg rest stuffed => exact Option.some.inj taken ▸ .pop waiting stuffed
  · next msg held => exact Option.some.inj taken ▸ .save held
  · next msg oneFrame i reading =>
    split at taken
    · next p there => exact Option.some.inj taken ▸ .read reading there
    · next behind => exact Option.some.inj taken ▸ .finish reading behind
  · next msg done => exact Option.some.inj taken ▸ .recycle done
  · cases taken

/-- The buffers in the queues and in the hands of the two threads. -/
def places (state : CloudBuffers P) : List Nat :=
  state.freeCloudQueue ++ state.stuffedCloudQueue ++ state.lidar.buffers ++ state.process.buffers

/-- No buffer is in two places, and a new one is none of them. -/
structure Apart (state : CloudBuffers P) : Prop where
  nodup : state.places.Nodup
  old : ∀ cloud ∈ state.places, cloud < state.fresh
  full : ∀ cloud ∈ state.full, cloud < state.fresh

theorem initial_apart : Apart (initial : CloudBuffers P) where
  nodup := by simp [places, initial, LidarPhase.buffers, ProcessPhase.buffers]
  old := by simp [places, initial, LidarPhase.buffers, ProcessPhase.buffers]
  full := by simp [initial]

theorem count_places (state : CloudBuffers P) (cloud : Nat) :
    state.places.count cloud = state.freeCloudQueue.count cloud +
      state.stuffedCloudQueue.count cloud + state.lidar.buffers.count cloud +
      state.process.buffers.count cloud := by
  simp only [places, List.count_append]

/-- The lidar takes the first free buffer, or one that nothing holds or points to. -/
theorem getPointCloud_cases (returned : state.lidar = .returned) :
    ∃ cloud, state.getPointCloud.lidar = .filling cloud ∧
      state.getPointCloud.points = Function.update state.points cloud [] ∧
      ((cloud ∈ state.freeCloudQueue ∧ state.getPointCloud.fresh = state.fresh ∧
          state.getPointCloud.places.Perm state.places) ∨
        (state.freeCloudQueue = [] ∧ cloud = state.fresh ∧
          state.getPointCloud.fresh = state.fresh + 1 ∧
          state.getPointCloud.places.Perm (state.fresh :: state.places))) := by
  cases free : state.freeCloudQueue with
  | nil =>
    refine ⟨state.fresh, by simp [getPointCloud, free], by simp [getPointCloud, free], .inr ?_⟩
    refine ⟨rfl, rfl, by simp [getPointCloud, free], List.perm_iff_count.mpr fun buffer => ?_⟩
    simp only [count_places, getPointCloud, free, returned, LidarPhase.buffers, List.count_cons,
      List.count_nil]
    omega
  | cons cloud rest =>
    refine ⟨cloud, by simp [getPointCloud, free], by simp [getPointCloud, free], .inl ?_⟩
    refine ⟨List.mem_cons_self, by simp [getPointCloud, free],
      List.perm_iff_count.mpr fun buffer => ?_⟩
    simp only [count_places, getPointCloud, free, returned, LidarPhase.buffers, List.count_cons,
      List.count_nil]
    omega

theorem getPointCloud_others (state : CloudBuffers P) :
    state.getPointCloud.stuffedCloudQueue = state.stuffedCloudQueue ∧
      state.getPointCloud.process = state.process ∧ state.getPointCloud.full = state.full ∧
      state.getPointCloud.split = state.split ∧ state.getPointCloud.accepted = state.accepted ∧
      state.getPointCloud.processed = state.processed := by
  cases free : state.freeCloudQueue <;> simp [getPointCloud, free]

/-- A step moves a buffer from place to place or gives it up, except that the lidar makes a new
one where none is free. -/
theorem Moves.places (moves : Moves legal state next) :
    (next.places.Subperm state.places ∧ next.fresh = state.fresh) ∨
      (state.lidar = .returned ∧ state.freeCloudQueue = [] ∧ next.fresh = state.fresh + 1 ∧
        next.places.Perm (state.fresh :: state.places)) := by
  cases moves with
  | get returned =>
    obtain ⟨cloud, -, -, ⟨-, fresh, same⟩ | ⟨free, -, fresh, more⟩⟩ := getPointCloud_cases returned
    · exact .inl ⟨same.subperm, fresh⟩
    · exact .inr ⟨returned, free, fresh, more⟩
  | write frame filling => exact .inl ⟨.refl _, rfl⟩
  | split phase | drop phase | push phase | save phase | read phase | finish phase
  | recycle phase =>
    refine .inl ⟨List.subperm_iff_count.mpr fun buffer => ?_, rfl⟩
    simp only [count_places, phase, LidarPhase.buffers, ProcessPhase.buffers, List.count_append,
      List.count_cons, List.count_nil]
    omega
  | pop waiting stuffed =>
    refine .inl ⟨List.subperm_iff_count.mpr fun buffer => ?_, rfl⟩
    simp only [count_places, waiting, stuffed, ProcessPhase.buffers, List.count_cons,
      List.count_nil]
    omega

theorem Moves.full (moves : Moves legal state next) :
    next.full = state.full ∨ ∃ msg ∈ state.places, next.full = some msg := by
  cases moves with
  | get returned => exact .inl (getPointCloud_others state).2.2.1
  | save taken => exact .inr ⟨_, by simp [CloudBuffers.places, taken, ProcessPhase.buffers], rfl⟩
  | _ => exact .inl rfl

theorem Apart.fresh_unused (apart : Apart state) : state.fresh ∉ state.places := fun member =>
  absurd (apart.old _ member) (Nat.lt_irrefl _)

theorem Apart.step (apart : Apart state) (moves : Moves legal state next) : Apart next := by
  have pointed : ∀ cloud ∈ next.full, cloud < state.fresh := by
    intro cloud member
    rcases moves.full with same | ⟨msg, held, saved⟩
    · exact apart.full cloud (same ▸ member)
    · obtain rfl : msg = cloud := by simpa [saved] using member
      exact apart.old msg held
  rcases moves.places with ⟨fewer, fresh⟩ | ⟨-, -, fresh, more⟩
  · refine ⟨List.nodup_iff_count_le_one.mpr fun cloud => ?_, ?_, fresh ▸ pointed⟩
    · have once := List.nodup_iff_count_le_one.mp apart.nodup cloud
      exact Nat.le_trans (fewer.count_le cloud) once
    · intro cloud member
      exact fresh ▸ apart.old cloud (fewer.subset member)
  · refine ⟨more.nodup_iff.mpr (List.nodup_cons.mpr ⟨apart.fresh_unused, apart.nodup⟩), ?_, ?_⟩
    · intro cloud member
      rw [fresh]
      rcases List.mem_cons.mp (more.mem_iff.mp member) with rfl | there
      · exact Nat.lt_succ_self _
      · exact Nat.lt_succ_of_lt (apart.old cloud there)
    · intro cloud member
      exact fresh ▸ Nat.lt_succ_of_lt (pointed cloud member)

/-- Two frames wait at most, and four buffers are in use. -/
structure Bounded (state : CloudBuffers P) : Prop where
  queue : state.stuffedCloudQueue.length ≤ 2
  -- the size that was read is not exceeded before the frame is queued
  room : ∀ cloud, state.lidar = .checked cloud false → state.stuffedCloudQueue.length ≤ 1
  live : state.places.length ≤ 4

theorem length_places (state : CloudBuffers P) :
    state.places.length = state.freeCloudQueue.length + state.stuffedCloudQueue.length +
      state.lidar.buffers.length + state.process.buffers.length := by
  simp only [places, List.length_append]

theorem length_process (phase : ProcessPhase P) : phase.buffers.length ≤ 1 := by
  cases phase <;> simp [ProcessPhase.buffers]

theorem initial_bounded : Bounded (initial : CloudBuffers P) where
  queue := by simp [initial]
  room := by simp [initial]
  live := by simp [places, initial, LidarPhase.buffers, ProcessPhase.buffers]

theorem Bounded.step (bounded : Bounded state) (moves : Moves legal state next) :
    Bounded next where
  queue := by
    cases moves with
    | @push cloud checked =>
      have room := bounded.room cloud checked
      rw [List.length_append]
      exact Nat.succ_le_succ room
    | pop waiting stuffed =>
      have queue := bounded.queue
      rw [stuffed] at queue
      exact Nat.le_of_succ_le queue
    | get returned => exact (getPointCloud_others state).1 ▸ bounded.queue
    | _ => exact bounded.queue
  room := by
    cases moves with
    | split filling =>
      intro cloud checked
      simp only [LidarPhase.checked.injEq, decide_eq_false_iff_not] at checked
      show state.stuffedCloudQueue.length ≤ 1
      omega
    | drop checked | push checked => exact nofun
    | get returned =>
      obtain ⟨cloud, filling, -⟩ := getPointCloud_cases returned
      rw [filling]
      exact nofun
    | pop waiting stuffed =>
      intro cloud checked
      have room := bounded.room cloud checked
      rw [stuffed] at room
      exact Nat.le_of_succ_le room
    | _ => exact bounded.room
  live := by
    rcases moves.places with ⟨fewer, -⟩ | ⟨returned, free, -, more⟩
    · exact Nat.le_trans fewer.length_le bounded.live
    · have waits := bounded.queue
      have one := length_process state.process
      rw [more.length_eq, List.length_cons, length_places, free, returned]
      simp only [LidarPhase.buffers, List.length_nil]
      omega

/-! The frames. -/

/-- The frames that were queued are those that became clouds and those that wait, in order, and
none of them is written to on the way. -/
structure InOrder (legal : P → Bool) (state : CloudBuffers P) : Prop where
  clouds : state.accepted.map (List.filter legal) = state.processed ++
    ((ProcessPhase.pending state.process ++ state.stuffedCloudQueue).map fun msg =>
      (state.points msg).filter legal)
  read : ∀ msg oneFrame i, state.process = .reading msg oneFrame i →
    i ≤ (state.points msg).length ∧ oneFrame = ((state.points msg).take i).filter legal
  split : (state.accepted ++ state.lidar.finished state.points).Sublist state.split

theorem initial_inOrder (legal : P → Bool) : InOrder legal (initial : CloudBuffers P) where
  clouds := by simp [initial, ProcessPhase.pending]
  read := by simp [initial]
  split := by simp [initial, LidarPhase.finished]

theorem pending_subset (phase : ProcessPhase P) : phase.pending ⊆ phase.buffers := by
  cases phase <;> simp [ProcessPhase.pending, ProcessPhase.buffers]

theorem Apart.lidar_alone (apart : Apart state) {cloud : Nat}
    (held : cloud ∈ state.lidar.buffers) :
    cloud ∉ state.freeCloudQueue ∧ cloud ∉ state.stuffedCloudQueue ∧
      cloud ∉ state.process.buffers := by
  have nodup := apart.nodup
  simp only [places, List.nodup_append] at nodup
  obtain ⟨⟨-, -, queues⟩, -, process⟩ := nodup
  refine ⟨fun member => ?_, fun member => ?_, fun member => ?_⟩
  · exact queues cloud (List.mem_append_left _ member) cloud held rfl
  · exact queues cloud (List.mem_append_right _ member) cloud held rfl
  · exact process cloud (List.mem_append_right _ held) cloud member rfl

theorem Apart.free_alone (apart : Apart state) {cloud : Nat}
    (held : cloud ∈ state.freeCloudQueue) :
    cloud ∉ state.stuffedCloudQueue ∧ cloud ∉ state.process.buffers := by
  have nodup := apart.nodup
  simp only [places, List.nodup_append] at nodup
  obtain ⟨⟨⟨-, -, stuffed⟩, -, -⟩, -, process⟩ := nodup
  refine ⟨fun member => ?_, fun member => ?_⟩
  · exact stuffed cloud held cloud member rfl
  · exact process cloud (List.mem_append_left _ (List.mem_append_left _ held)) cloud member rfl

/-- What is written to a buffer that neither waits nor is processed changes no frame. -/
theorem InOrder.update (order : InOrder legal state) {cloud : Nat} (frame : List P)
    (stuffed : cloud ∉ state.stuffedCloudQueue) (process : cloud ∉ state.process.buffers)
    (unfinished : state.lidar.finished state.points = [])
    {other : CloudBuffers P} (points : other.points = Function.update state.points cloud frame)
    (lidar : other.lidar.finished other.points = [])
    (stuffedCloudQueue : other.stuffedCloudQueue = state.stuffedCloudQueue)
    (phase : other.process = state.process) (split : other.split = state.split)
    (accepted : other.accepted = state.accepted) (processed : other.processed = state.processed) :
    InOrder legal other where
  clouds := by
    rw [accepted, processed, phase, stuffedCloudQueue, order.clouds]
    congr 1
    apply List.map_congr_left
    intro msg member
    have differs : msg ≠ cloud := by
      rintro rfl
      exact (List.mem_append.mp member).elim (fun held => process (pending_subset _ held)) stuffed
    rw [points, Function.update_of_ne differs]
  read msg oneFrame i reading := by
    rw [phase] at reading
    have differs : msg ≠ cloud := by
      rintro rfl
      exact process (by simp [reading, ProcessPhase.buffers])
    rw [points, Function.update_of_ne differs]
    exact order.read msg oneFrame i reading
  split := by
    have kept := order.split
    rw [unfinished] at kept
    rwa [lidar, accepted, split]

theorem InOrder.step (apart : Apart state) (order : InOrder legal state)
    (moves : Moves legal state next) : InOrder legal next := by
  cases moves with
  | @write cloud frame filling =>
    have held : cloud ∈ state.lidar.buffers := by simp [filling, LidarPhase.buffers]
    have alone := apart.lidar_alone held
    have unfinished (points : Nat → List P) : state.lidar.finished points = [] := by
      rw [filling, LidarPhase.finished]
    exact order.update frame alone.2.1 alone.2.2 (unfinished _) rfl (unfinished _) rfl rfl rfl rfl
      rfl
  | @split cloud filling =>
    have kept := order.split
    simp only [filling, LidarPhase.finished, List.append_nil] at kept
    exact ⟨order.clouds, order.read, kept.append (.refl _)⟩
  | drop checked =>
    have kept := order.split
    rw [checked] at kept
    refine ⟨order.clouds, order.read, ?_⟩
    simp only [LidarPhase.finished, List.append_nil] at kept ⊢
    exact (List.sublist_append_left _ _).trans kept
  | @push cloud checked =>
    have kept := order.split
    rw [checked] at kept
    refine ⟨?_, order.read, ?_⟩
    · simp [order.clouds]
    · simpa [LidarPhase.finished] using kept
  | get returned =>
    obtain ⟨cloud, filling, points, source⟩ := getPointCloud_cases returned
    have alone : cloud ∉ state.stuffedCloudQueue ∧ cloud ∉ state.process.buffers := by
      rcases source with ⟨free, -, -⟩ | ⟨-, rfl, -, -⟩
      · exact apart.free_alone free
      · have unused := apart.fresh_unused
        simp only [places, List.mem_append, not_or] at unused
        exact ⟨unused.1.1.2, unused.2⟩
    obtain ⟨stuffed, process, -, split, accepted, processed⟩ := getPointCloud_others state
    exact order.update [] alone.1 alone.2 (by rw [returned, LidarPhase.finished]) points
      (by rw [filling, LidarPhase.finished]) stuffed process split accepted processed
  | pop waiting stuffed =>
    refine ⟨?_, nofun, order.split⟩
    simp only [order.clouds, waiting, stuffed, ProcessPhase.pending, List.nil_append,
      List.singleton_append]
  | save taken =>
    refine ⟨?_, ?_, order.split⟩
    · simp only [order.clouds, taken, ProcessPhase.pending]
    · intro msg oneFrame i reading
      obtain ⟨rfl, rfl, rfl⟩ := ProcessPhase.reading.inj reading
      simp
  | @read msg i oneFrame p reading there =>
    refine ⟨?_, ?_, order.split⟩
    · simp only [order.clouds, reading, ProcessPhase.pending]
    · intro other frame j same
      obtain ⟨rfl, rfl, rfl⟩ := ProcessPhase.reading.inj same
      obtain ⟨-, sofar⟩ := order.read msg oneFrame i reading
      obtain ⟨inside, value⟩ := List.getElem?_eq_some_iff.mp there
      refine ⟨inside, ?_⟩
      rw [List.take_succ_eq_append_getElem inside, List.filter_append, ← sofar, value]
      cases chosen : legal p <;> simp [chosen]
  | @finish msg i oneFrame reading behind =>
    refine ⟨?_, nofun, order.split⟩
    obtain ⟨-, sofar⟩ := order.read msg oneFrame i reading
    have whole : (state.points msg).take i = state.points msg :=
      List.take_of_length_le (List.getElem?_eq_none_iff.mp behind)
    rw [whole] at sofar
    simp [order.clouds, reading, ProcessPhase.pending, sofar]
  | recycle done =>
    refine ⟨?_, nofun, order.split⟩
    simp only [order.clouds, done, ProcessPhase.pending]

/-- The pointer of `save_ply_file` shows the frame that it was set to until the buffer goes back to
the lidar, and from then on a later frame, complete or not. -/
structure Shown (state : CloudBuffers P) : Prop where
  kept : state.reused = false → ∀ cloud ∈ state.full, state.points cloud = state.saved ∧
    cloud ∉ state.lidar.buffers ∧ cloud ∉ state.stuffedCloudQueue
  later : state.reused = true → ∀ cloud ∈ state.full,
    state.lidar = .filling cloud ∨ state.points cloud ∈ state.split

theorem initial_shown : Shown (initial : CloudBuffers P) where
  kept _ _ none := by simp [initial] at none
  later _ _ none := by simp [initial] at none

theorem Apart.process_alone (apart : Apart state) {msg : Nat}
    (held : msg ∈ state.process.buffers) :
    msg ∉ state.lidar.buffers ∧ msg ∉ state.stuffedCloudQueue := by
  have nodup := apart.nodup
  simp only [places, List.nodup_append] at nodup
  obtain ⟨-, -, process⟩ := nodup
  refine ⟨fun member => ?_, fun member => ?_⟩
  · exact process msg (List.mem_append_right _ member) msg held rfl
  · exact process msg (List.mem_append_left _ (List.mem_append_right _ member)) msg held rfl

/-- Where the lidar fills nothing, the pointer shows a frame that is complete. -/
theorem Shown.complete (shown : Shown state) (busy : ∀ cloud, state.lidar ≠ .filling cloud)
    (reused : state.reused = true) {msg : Nat} (full : msg ∈ state.full) :
    state.points msg ∈ state.split :=
  (shown.later reused msg full).resolve_left (busy msg)

theorem Shown.getPointCloud (shown : Shown state) (apart : Apart state)
    (returned : state.lidar = .returned) : Shown state.getPointCloud := by
  have unfilled (msg : Nat) : state.lidar ≠ .filling msg := by
    rw [returned]
    exact nofun
  cases free : state.freeCloudQueue with
  | cons cloud rest =>
    simp only [CloudBuffers.getPointCloud, free]
    constructor
    · intro unused msg full
      obtain ⟨fresh, other⟩ := Bool.or_eq_false_iff.mp unused
      have differs : msg ≠ cloud := by
        rintro rfl
        exact of_decide_eq_false other full
      obtain ⟨points, -, stuffed⟩ := shown.kept fresh msg full
      rw [← points]
      exact ⟨Function.update_of_ne differs _ _, by simp [LidarPhase.buffers, differs], stuffed⟩
    · intro reused msg full
      by_cases same : msg = cloud
      · exact .inl (congrArg LidarPhase.filling same.symm)
      · have before : state.reused = true := by
          have others : state.full ≠ some cloud := fun both =>
            same (Option.some.inj (full.symm.trans both))
          simpa [others] using reused
        have complete := shown.complete unfilled before full
        exact .inr (by simpa [Function.update_of_ne same] using complete)
  | nil =>
    simp only [CloudBuffers.getPointCloud, free]
    have older (msg : Nat) (full : msg ∈ state.full) : msg ≠ state.fresh :=
      Nat.ne_of_lt (apart.full msg full)
    constructor
    · intro unused msg full
      obtain ⟨points, -, stuffed⟩ := shown.kept unused msg full
      rw [← points]
      exact ⟨Function.update_of_ne (older msg full) _ _,
        by simp [LidarPhase.buffers, older msg full], stuffed⟩
    · intro reused msg full
      have complete := shown.complete unfilled reused full
      exact .inr (by simpa [Function.update_of_ne (older msg full)] using complete)

theorem Shown.step (apart : Apart state) (shown : Shown state) (moves : Moves legal state next) :
    Shown next := by
  cases moves with
  | @write cloud frame filling =>
    constructor
    · intro unused msg full
      obtain ⟨points, lidar, stuffed⟩ := shown.kept unused msg full
      have differs : msg ≠ cloud := by
        rintro rfl
        exact lidar (by simp [filling, LidarPhase.buffers])
      refine ⟨?_, lidar, stuffed⟩
      rw [← points]
      exact Function.update_of_ne differs _ _
    · intro reused msg full
      by_cases same : msg = cloud
      · exact .inl (same ▸ filling)
      · refine (shown.later reused msg full).imp id fun complete => ?_
        simpa [Function.update_of_ne same] using complete
  | @split cloud filling =>
    constructor
    · intro unused msg full
      obtain ⟨points, lidar, stuffed⟩ := shown.kept unused msg full
      rw [filling] at lidar
      exact ⟨points, lidar, stuffed⟩
    · intro reused msg full
      refine .inr (List.mem_append.mpr ?_)
      rcases shown.later reused msg full with again | complete
      · obtain rfl : cloud = msg := LidarPhase.filling.inj (filling.symm.trans again)
        exact .inr (List.mem_singleton.mpr rfl)
      · exact .inl complete
  | @drop cloud checked =>
    constructor
    · intro unused msg full
      obtain ⟨points, -, stuffed⟩ := shown.kept unused msg full
      exact ⟨points, List.not_mem_nil, stuffed⟩
    · intro reused msg full
      exact .inr (shown.complete (by simp [checked]) reused full)
  | @push cloud checked =>
    constructor
    · intro unused msg full
      obtain ⟨points, lidar, stuffed⟩ := shown.kept unused msg full
      refine ⟨points, List.not_mem_nil, fun member => ?_⟩
      rcases List.mem_append.mp member with waiting | last
      · exact stuffed waiting
      · exact lidar (by simpa [checked, LidarPhase.buffers] using last)
    · intro reused msg full
      exact .inr (shown.complete (by simp [checked]) reused full)
  | get returned => exact shown.getPointCloud apart returned
  | pop waiting stuffed =>
    constructor
    · intro unused msg full
      obtain ⟨points, lidar, inside⟩ := shown.kept unused msg full
      rw [stuffed, List.mem_cons, not_or] at inside
      exact ⟨points, lidar, inside.2⟩
    · exact shown.later
  | @save msg taken =>
    constructor
    · intro _ other full
      obtain rfl : msg = other := by simpa using full
      have held : msg ∈ state.process.buffers := by simp [taken, ProcessPhase.buffers]
      have alone := apart.process_alone held
      exact ⟨rfl, alone.1, alone.2⟩
    · exact nofun
  | read reading there => exact ⟨shown.kept, shown.later⟩
  | finish reading behind => exact ⟨shown.kept, shown.later⟩
  | recycle done => exact ⟨shown.kept, shown.later⟩

/-! Over whole runs. -/

theorem apart_of_reachable (reached : Reachable (step legal) initial state) : Apart state :=
  invariant_of_reachable initial_apart
    (fun _ _ _ apart taken => apart.step (moves_of_step taken)) reached

theorem inOrder_of_reachable (reached : Reachable (step legal) initial state) :
    InOrder legal state := by
  refine invariant_along (initial_inOrder legal) ?_ reached
  intro state event next before order taken
  exact order.step (apart_of_reachable before) (moves_of_step taken)

theorem shown_of_reachable (reached : Reachable (step legal) initial state) : Shown state := by
  refine invariant_along initial_shown ?_ reached
  intro state event next before shown taken
  exact shown.step (apart_of_reachable before) (moves_of_step taken)

/-- A frame is processed, and its buffer comes back to the lidar behind the next one. -/
def handover : List (BufferEvent Nat) :=
  [.point 1, .point 40, .splitFrame, .returnCloud, .getCloud, .popWait, .saveFullCloud, .makeCloud,
    .makeCloud, .makeCloud, .pushFree, .point 2, .splitFrame, .returnCloud, .getCloud]

def legalIntensity (p : Nat) : Bool := Nat.ble p 9

def handedOver : CloudBuffers Nat :=
  (exec (step legalIntensity) initial handover).getD initial

theorem handover_reached : Reachable (step legalIntensity) initial handedOver :=
  ⟨handover, rfl⟩

/-- The two threads and the two queues share no buffer, two frames wait at most, and four buffers
are in use. -/
theorem buffers_apart (reached : Reachable (step legal) initial state) :
    state.places.Nodup ∧ state.stuffedCloudQueue.length ≤ 2 ∧ state.places.length ≤ 4 := by
  have bounded : Bounded state := invariant_of_reachable initial_bounded
    (fun _ _ _ bounded taken => bounded.step (moves_of_step taken)) reached
  exact ⟨(apart_of_reachable reached).nodup, bounded.queue, bounded.live⟩

theorem buffers_apart_handover :
    handedOver.places.Nodup ∧ handedOver.stuffedCloudQueue.length ≤ 2 ∧
      handedOver.places.length ≤ 4 :=
  buffers_apart handover_reached

/-- The frames that become clouds are the first of those that were queued, in order and as the
lidar completed them; the others wait. -/
theorem frames_in_order (reached : Reachable (step legal) initial state) :
    state.accepted.Sublist state.split ∧
      state.accepted.map (List.filter legal) = state.processed ++
        ((ProcessPhase.pending state.process ++ state.stuffedCloudQueue).map fun msg =>
          (state.points msg).filter legal) := by
  have order := inOrder_of_reachable reached
  exact ⟨(List.sublist_append_left _ _).trans order.split, order.clouds⟩

theorem frames_in_order_handover :
    handedOver.accepted.Sublist handedOver.split ∧
      handedOver.accepted.map (List.filter legalIntensity) = handedOver.processed ++
        ((ProcessPhase.pending handedOver.process ++ handedOver.stuffedCloudQueue).map fun msg =>
          (handedOver.points msg).filter legalIntensity) :=
  frames_in_order handover_reached

end CloudBuffers

end AutoDrop
