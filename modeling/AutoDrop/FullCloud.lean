import AutoDrop.CloudBuffers

/-!
The full cloud that `save_ply_file` copies. `get_full_cloud` holds `g_rd_result_mutex`, so the
pointer stays while it copies; the lidar does not take that mutex, and may meanwhile be given the
buffer behind the pointer.
-/

namespace AutoDrop

open LabelledRun

/-- A call of `get_full_cloud`, from where it has the mutex until it gives it back. -/
inductive FullCloudReader (P : Type)
  | idle
  | copying (msg size : Nat) (ret : List P)
  | copied (ret : List P)

structure FullCloud (P : Type) where
  buffers : CloudBuffers P
  reader : FullCloudReader P

inductive FullCloudEvent (P : Type)
  | buffers (event : BufferEvent P)
  | getFullCloud
  | copyPoint (stale : P)
  | unlock

/-- Whether the event takes the mutex. -/
def BufferEvent.locks {P : Type} : BufferEvent P → Bool
  | .saveFullCloud => true
  | _ => false

def FullCloudReader.locked {P : Type} : FullCloudReader P → Bool
  | .idle => false
  | .copying _ _ _ => true
  | .copied _ => true

namespace FullCloud

variable {P : Type}

def initial : FullCloud P := ⟨.initial, .idle⟩

/-- A copy is as long as the buffer was at its begin. Behind the end of a buffer that was emptied
meanwhile it finds whatever the memory has. -/
def step (legal : P → Bool) (state : FullCloud P) :
    FullCloudEvent P → Option (FullCloud P)
  | .buffers event =>
      if event.locks = true ∧ state.reader.locked = true then none
      else (state.buffers.step legal event).map fun buffers => { state with buffers }
  | .getFullCloud =>
      match state.reader with
      | .idle =>
          match state.buffers.full with
          | none => some { state with reader := .copied [] }
          | some msg =>
              some { state with reader := .copying msg (state.buffers.points msg).length [] }
      | _ => none
  | .copyPoint stale =>
      match state.reader with
      | .copying msg size ret =>
          if ret.length < size then
            let p := (state.buffers.points msg)[ret.length]?.getD stale
            some { state with reader := .copying msg size (ret ++ [p]) }
          else some { state with reader := .copied ret }
      | _ => none
  | .unlock =>
      match state.reader with
      | .copied _ => some { state with reader := .idle }
      | _ => none

/-- Unless its buffer is in use again, what has been copied is the front of the cloud that was
saved last. -/
structure Copied (state : FullCloud P) : Prop where
  unset : state.buffers.full = none → state.buffers.saved = []
  pointer : ∀ msg size ret, state.reader = .copying msg size ret → state.buffers.full = some msg
  front : ∀ msg size ret, state.reader = .copying msg size ret → state.buffers.reused = false →
    size = state.buffers.saved.length ∧ ret = state.buffers.saved.take ret.length
  whole : ∀ ret, state.reader = .copied ret → state.buffers.reused = false →
    ret = state.buffers.saved

theorem initial_copied : (initial : FullCloud P).Copied where
  unset _ := rfl
  pointer := nofun
  front := nofun
  whole := nofun

variable {legal : P → Bool} {state next : FullCloud P}

theorem buffers_cases {event : BufferEvent P}
    (taken : step legal state (.buffers event) = some next) :
    CloudBuffers.step legal state.buffers event = some next.buffers ∧
      next.reader = state.reader ∧ (event.locks = true → state.reader.locked = false) := by
  simp only [step] at taken
  split at taken
  · cases taken
  · rename_i open'
    obtain ⟨buffers, moved, rfl⟩ := Option.map_eq_some_iff.mp taken
    refine ⟨moved, rfl, fun locks => ?_⟩
    simpa using fun locked => open' ⟨locks, locked⟩

theorem getFullCloud_cases (taken : step legal state .getFullCloud = some next) :
    (state.buffers.full = none ∧ next = { state with reader := .copied [] }) ∨
      ∃ msg, state.buffers.full = some msg ∧
        next = { state with reader := .copying msg (state.buffers.points msg).length [] } := by
  simp only [step] at taken
  split at taken
  · split at taken
    · rename_i unset
      exact .inl ⟨unset, (Option.some.inj taken).symm⟩
    · rename_i msg set
      exact .inr ⟨msg, set, (Option.some.inj taken).symm⟩
  · cases taken

theorem copyPoint_cases {stale : P} (taken : step legal state (.copyPoint stale) = some next) :
    ∃ msg size ret, state.reader = .copying msg size ret ∧
      ((ret.length < size ∧ next = { state with
          reader := .copying msg size
            (ret ++ [(state.buffers.points msg)[ret.length]?.getD stale]) }) ∨
        (size ≤ ret.length ∧ next = { state with reader := .copied ret })) := by
  simp only [step] at taken
  split at taken
  · rename_i msg size ret copying
    refine ⟨msg, size, ret, copying, ?_⟩
    split at taken
    · rename_i more
      exact .inl ⟨more, (Option.some.inj taken).symm⟩
    · rename_i enough
      exact .inr ⟨Nat.le_of_not_lt enough, (Option.some.inj taken).symm⟩
  · cases taken

theorem unlock_eq (taken : step legal state .unlock = some next) :
    next = { state with reader := .idle } := by
  simp only [step] at taken
  split at taken
  · exact (Option.some.inj taken).symm
  · cases taken

/-- The threads of the buffers go on as they do without a reader. -/
theorem buffers_reachable (reached : Reachable (step legal) initial state) :
    Reachable (CloudBuffers.step legal) .initial state.buffers := by
  have kept (state : FullCloud P) (event : FullCloudEvent P) (next : FullCloud P)
      (before : Reachable (CloudBuffers.step legal) .initial state.buffers)
      (taken : step legal state event = some next) :
      Reachable (CloudBuffers.step legal) .initial next.buffers := by
    cases event with
    | buffers event => exact before.tail (buffers_cases taken).1
    | getFullCloud =>
        rcases getFullCloud_cases taken with ⟨-, rfl⟩ | ⟨msg, -, rfl⟩
        · exact before
        · exact before
    | copyPoint stale =>
        obtain ⟨msg, size, ret, -, ⟨-, rfl⟩ | ⟨-, rfl⟩⟩ := copyPoint_cases taken
        · exact before
        · exact before
    | unlock =>
        obtain rfl := unlock_eq taken
        exact before
  exact @invariant_of_reachable _ _ (FullCloud.step legal)
    (fun state => Reachable (CloudBuffers.step legal) .initial state.buffers) initial (.refl _) kept
    state reached

theorem Copied.step (copied : state.Copied) (shown : state.buffers.Shown)
    {event : FullCloudEvent P} (taken : FullCloud.step legal state event = some next) :
    next.Copied := by
  cases event with
  | buffers event =>
      obtain ⟨moved, reader, free⟩ := buffers_cases taken
      rcases CloudBuffers.step_pointer moved with ⟨rfl, msg, set⟩ | ⟨-, full, saved, reused⟩
      · have idle : next.reader.locked = false := reader ▸ free rfl
        refine ⟨?_, ?_, ?_, ?_⟩
        · rw [set]
          exact nofun
        · intro msg size ret copying
          rw [copying] at idle
          cases idle
        · intro msg size ret copying
          rw [copying] at idle
          cases idle
        · intro ret whole
          rw [whole] at idle
          cases idle
      · refine ⟨?_, ?_, ?_, ?_⟩
        · rw [full, saved]
          exact copied.unset
        · rw [reader, full]
          exact copied.pointer
        · rw [reader, saved]
          exact fun msg size ret copying unused => copied.front msg size ret copying (reused unused)
        · rw [reader, saved]
          exact fun ret whole unused => copied.whole ret whole (reused unused)
  | getFullCloud =>
      rcases getFullCloud_cases taken with ⟨unset, rfl⟩ | ⟨msg, set, rfl⟩
      · refine ⟨copied.unset, nofun, nofun, fun ret whole _ => ?_⟩
        obtain rfl := FullCloudReader.copied.inj whole
        exact (copied.unset unset).symm
      · refine ⟨copied.unset, fun other size ret same => ?_, fun other size ret same unused => ?_,
          nofun⟩
        · obtain ⟨rfl, -, -⟩ := FullCloudReader.copying.inj same
          exact set
        · obtain ⟨rfl, rfl, rfl⟩ := FullCloudReader.copying.inj same
          rw [(shown.kept unused msg set).1]
          exact ⟨rfl, rfl⟩
  | copyPoint stale =>
      obtain ⟨msg, size, ret, copying, ⟨more, rfl⟩ | ⟨enough, rfl⟩⟩ := copyPoint_cases taken
      · refine ⟨copied.unset, fun other bound longer same => ?_,
          fun other bound longer same unused => ?_, nofun⟩
        · obtain ⟨rfl, -, -⟩ := FullCloudReader.copying.inj same
          exact copied.pointer msg size ret copying
        · obtain ⟨rfl, rfl, rfl⟩ := FullCloudReader.copying.inj same
          obtain ⟨length, front⟩ := copied.front msg size ret copying unused
          have inside : ret.length < state.buffers.saved.length := length ▸ more
          have points := (shown.kept unused msg (copied.pointer msg size ret copying)).1
          refine ⟨length, ?_⟩
          rw [points, List.getElem?_eq_getElem inside, Option.getD_some, List.length_append,
            List.length_singleton, List.take_succ_eq_append_getElem inside, ← front]
      · refine ⟨copied.unset, nofun, nofun, fun other whole unused => ?_⟩
        obtain rfl := FullCloudReader.copied.inj whole
        obtain ⟨length, front⟩ := copied.front msg size ret copying unused
        rw [front]
        exact List.take_of_length_le (length ▸ enough)
  | unlock =>
      obtain rfl := unlock_eq taken
      exact ⟨copied.unset, nofun, nofun, nofun⟩

theorem copied_of_reachable (reached : Reachable (step legal) initial state) : state.Copied := by
  refine invariant_along initial_copied ?_ reached
  intro state event next before copied taken
  exact copied.step (CloudBuffers.shown_of_reachable (buffers_reachable before)) taken

/-- A copy that is whole before its buffer goes into use again is the cloud that was saved last.
The buffer itself holds that cloud until then, and from then on what the lidar fills or a frame
that it completed. -/
theorem full_cloud_shown (reached : Reachable (step legal) initial state) :
    (state.buffers.reused = false →
        (∀ ret, state.reader = .copied ret → ret = state.buffers.saved) ∧
          ∀ msg ∈ state.buffers.full, state.buffers.points msg = state.buffers.saved) ∧
      (state.buffers.reused = true → ∀ msg ∈ state.buffers.full,
        state.buffers.lidar = .filling msg ∨
          state.buffers.points msg ∈ state.buffers.split) := by
  have copied := copied_of_reachable reached
  have shown := CloudBuffers.shown_of_reachable (buffers_reachable reached)
  refine ⟨fun unused => ⟨fun ret whole => copied.whole ret whole unused, ?_⟩, shown.later⟩
  exact fun msg full => (shown.kept unused msg full).1

def savedOnce : List (FullCloudEvent Nat) :=
  [.point 1, .point 40, .splitFrame, .returnCloud, .getCloud, .popWait, .saveFullCloud].map .buffers

/-- The lidar fills another buffer while the full cloud is copied. -/
def copyInTime : List (FullCloudEvent Nat) :=
  savedOnce ++
    [.getFullCloud, .copyPoint 0, .buffers (.point 2), .copyPoint 0, .copyPoint 0]

def inTime : FullCloud Nat :=
  (exec (step CloudBuffers.legalIntensity) initial copyInTime).getD initial

theorem inTime_reached : Reachable (step CloudBuffers.legalIntensity) initial inTime :=
  ⟨copyInTime, rfl⟩

theorem full_cloud_shown_inTime :
    ∃ ret, inTime.reader = .copied ret ∧ ret = inTime.buffers.saved :=
  ⟨[1, 40], rfl, ((full_cloud_shown inTime_reached).1 rfl).1 [1, 40] rfl⟩

/-- A buffer that goes back into use while it is copied is mixed with what it was. -/
example :
    ((exec (step CloudBuffers.legalIntensity) initial
      (savedOnce ++ [.getFullCloud, .copyPoint 0] ++
        [.makeCloud, .makeCloud, .makeCloud, .pushFree, .point 2, .splitFrame, .returnCloud,
          .getCloud, .point 5, .point 3].map .buffers ++ [.copyPoint 0, .copyPoint 0])).map
        fun state => state.reader) = some (.copied [1, 3]) := by
  rfl

end FullCloud

end AutoDrop
