import AutoDrop.KeyedGroups
import AutoDrop.LidarDecoder
import Mathlib.Data.List.Chain

/-!
The frames are the turns of the head. An absolute azimuth grows while the head turns, and a block
tells it up to whole turns.
-/

namespace AutoDrop

open LabelledRun KeyedGroups

/-! What the thread of the lidar has handed over, and the points since then. -/

def BufferEvent.fill {P : Type} (view : List (List P) × List P) :
    BufferEvent P → List (List P) × List P
  | .point p => (view.1, view.2 ++ [p])
  | .overflow => (view.1, [])
  | .splitFrame => (view.1 ++ [view.2], view.2)
  | .getCloud => (view.1, [])
  | _ => view

def BufferEvent.ofLidar {P : Type} : BufferEvent P → Bool
  | .point _ => true
  | .overflow => true
  | .splitFrame => true
  | .returnCloud => true
  | .getCloud => true
  | _ => false

namespace CloudBuffers

variable {P : Type} {legal : P → Bool} {state next : CloudBuffers P}
  {view : List (List P) × List P}

structure Filled (view : List (List P) × List P) (state : CloudBuffers P) : Prop where
  split : state.split = view.1
  cloud : ∀ cloud, state.lidar = .filling cloud → state.points cloud = view.2

theorem Filled.step (filled : Filled view state) {event : BufferEvent P}
    (taken : step legal state event = some next) : Filled (event.fill view) next := by
  unfold CloudBuffers.step at taken
  split at taken
  · next p cloud filling =>
    cases taken
    refine ⟨filled.split, ?_⟩
    intro other same
    obtain rfl : cloud = other := LidarPhase.filling.inj (filling.symm.trans same)
    simp [BufferEvent.fill, filled.cloud cloud filling]
  · next cloud filling =>
    split at taken
    · cases taken
      refine ⟨filled.split, ?_⟩
      intro other same
      obtain rfl : cloud = other := LidarPhase.filling.inj (filling.symm.trans same)
      simp [BufferEvent.fill]
    · cases taken
  · next cloud filling =>
    split at taken
    · cases taken
      refine ⟨?_, nofun⟩
      simp [BufferEvent.fill, filled.split, filled.cloud cloud filling]
    · cases taken
  · next cloud crowded checked =>
    split at taken
    all_goals
      cases taken
      exact ⟨filled.split, nofun⟩
  · next returned =>
    cases taken
    refine ⟨?_, ?_⟩
    · obtain ⟨-, -, -, same, -⟩ := getPointCloud_others state
      rw [same]
      exact filled.split
    · obtain ⟨cloud, filling, points, -⟩ := getPointCloud_cases returned
      intro other same
      obtain rfl : cloud = other := LidarPhase.filling.inj (filling.symm.trans same)
      simp [points, BufferEvent.fill]
  · split at taken
    · cases taken
    · cases taken
      exact ⟨filled.split, filled.cloud⟩
  · cases taken
    exact ⟨filled.split, filled.cloud⟩
  · split at taken
    all_goals
      cases taken
      exact ⟨filled.split, filled.cloud⟩
  · cases taken
    exact ⟨filled.split, filled.cloud⟩
  · cases taken

theorem Filled.exec {events : List (BufferEvent P)} (filled : Filled view state)
    (run : exec (CloudBuffers.step legal) state events = some next) :
    Filled (events.foldl BufferEvent.fill view) next := by
  induction events generalizing state view with
  | nil => exact Option.some.inj run ▸ filled
  | cons event rest ih =>
    obtain ⟨middle, taken, run⟩ := exec_cons_eq_some.mp run
    exact ih (filled.step taken) run

end CloudBuffers

namespace BufferEvent

variable {P : Type} {view : List (List P) × List P}

theorem foldl_ofLidar (events : List (BufferEvent P)) (view : List (List P) × List P) :
    (events.filter ofLidar).foldl fill view = events.foldl fill view := by
  induction events generalizing view with
  | nil => rfl
  | cons event rest ih => cases event <;> exact ih _

theorem frames_prefix (events : List (BufferEvent P)) (view : List (List P) × List P) :
    view.1 <+: (events.foldl fill view).1 := by
  induction events generalizing view with
  | nil => exact List.prefix_refl _
  | cons event rest ih =>
    refine List.IsPrefix.trans ?_ (ih _)
    cases event
    case splitFrame => exact List.prefix_append _ _
    all_goals exact List.prefix_refl _

theorem frames_mono {some all : List (BufferEvent P)} (first : some <+: all) :
    (some.foldl fill view).1 <+: (all.foldl fill view).1 := by
  obtain ⟨rest, rfl⟩ := first
  rw [List.foldl_append]
  exact frames_prefix rest _

theorem foldl_points (points : List P) (view : List (List P) × List P) :
    (points.map BufferEvent.point).foldl fill view = (view.1, view.2 ++ points) := by
  induction points generalizing view with
  | nil => simp
  | cons p rest ih => simp [ih, fill]

end BufferEvent

namespace LidarDecoder

/-- The turn in which an absolute azimuth lies. -/
def turnOf (splitAngle position : Int) : Int := (position - splitAngle) / 36000

/-- The block as the lidar sends it. -/
def wrapped (block : LidarBlock) : LidarBlock := (block.1 % 36000, block.2)

/-- The head turns by less than one turn, and not past the split angle and then past zero. -/
def Forwards (splitAngle : Int) (before after : LidarBlock) : Prop :=
  before.1 ≤ after.1 ∧ after.1 < before.1 + 36000 ∧
    (before.1 % 36000 < splitAngle →
      before.1 / 36000 = after.1 / 36000 ∨ splitAngle ≤ after.1 % 36000)

def located (splitAngle : Int) (head : List LidarBlock) : List (Int × List LidarPoint) :=
  head.map fun block => (turnOf splitAngle block.1, block.2)

variable {settings : LidarSettings} {floats : LidarFloats} {decoder : LidarDecoder}

theorem newBlock_turn {splitAngle : Int} {before after : LidarBlock} (zero : 0 ≤ splitAngle)
    (round : splitAngle < 36000) (ahead : Forwards splitAngle before after) :
    (newBlock splitAngle (before.1 % 36000) (after.1 % 36000)).1 = true ∧
        turnOf splitAngle before.1 < turnOf splitAngle after.1 ∨
      (newBlock splitAngle (before.1 % 36000) (after.1 % 36000)).1 = false ∧
        turnOf splitAngle before.1 = turnOf splitAngle after.1 := by
  obtain ⟨behind, near, apart⟩ := ahead
  simp only [newBlock, turnOf, Bool.and_eq_true, Bool.and_eq_false_iff, decide_eq_true_eq,
    decide_eq_false_iff_not]
  split <;> omega

/-- The decoder has read the blocks of `head` and handed `frames` over. -/
inductive Follows (settings : LidarSettings) :
    List LidarBlock → LidarDecoder → List (List LidarPoint) → Prop
  | start {decoder : LidarDecoder} (empty : decoder.pointCloud = []) :
      Follows settings [] decoder []
  | moving {head : List LidarBlock} {last : LidarBlock} {decoder : LidarDecoder}
      {frames : List (List LidarPoint)}
      (cut : Cut (located settings.splitAngle (head ++ [last]))
        (turnOf settings.splitAngle last.1) frames decoder.pointCloud)
      (behind : ∀ turn ∈ (located settings.splitAngle (head ++ [last])).map Prod.fst,
        turn ≤ turnOf settings.splitAngle last.1)
      (angle : decoder.prevAngle = last.1 % 36000) :
      Follows settings (head ++ [last]) decoder frames

variable {head : List LidarBlock} {frames : List (List LidarPoint)}

theorem Follows.congr {other : LidarDecoder} (follows : Follows settings head decoder frames)
    (cloud : other.pointCloud = decoder.pointCloud) (angle : other.prevAngle = decoder.prevAngle) :
    Follows settings head other frames := by
  cases follows with
  | start empty => exact .start (cloud.trans empty)
  | moving cut behind same => exact .moving (cloud ▸ cut) behind (angle.trans same)

theorem splitFrame_fill (decoder : LidarDecoder) (frames : List (List LidarPoint)) :
    (splitFrame decoder).2.foldl BufferEvent.fill (frames, decoder.pointCloud) =
        (frames ++ closed decoder.pointCloud, []) ∧
      (splitFrame decoder).1.pointCloud = [] := by
  unfold splitFrame
  cases cloud : decoder.pointCloud with
  | nil => simp [cloud, closed]
  | cons p rest => simp [closed, BufferEvent.fill]

theorem takeBlock_fill (settings : LidarSettings) (decoder : LidarDecoder) (block : LidarBlock)
    (frames : List (List LidarPoint)) :
    (takeBlock settings decoder block).1.prevAngle = block.1 ∧
      (takeBlock settings decoder block).2.foldl BufferEvent.fill (frames, decoder.pointCloud) =
        (if (newBlock settings.splitAngle decoder.prevAngle block.1).1 then
            frames ++ closed decoder.pointCloud
          else frames,
          (takeBlock settings decoder block).1.pointCloud) ∧
      (takeBlock settings decoder block).1.pointCloud =
        if (newBlock settings.splitAngle decoder.prevAngle block.1).1 then block.2
        else decoder.pointCloud ++ block.2 := by
  unfold takeBlock
  obtain ⟨filled, emptied⟩ := splitFrame_fill decoder frames
  cases crossed : (newBlock settings.splitAngle decoder.prevAngle block.1).1 with
  | true =>
    refine ⟨rfl, ?_, ?_⟩
    · simp only [crossed, if_true, List.foldl_append, filled, BufferEvent.foldl_points, emptied]
    · simp only [crossed, if_true, emptied, List.nil_append]
  | false =>
    refine ⟨rfl, ?_, ?_⟩
    · simp [crossed, BufferEvent.foldl_points]
    · simp [crossed]

theorem located_concat (splitAngle : Int) (head : List LidarBlock) (block : LidarBlock) :
    located splitAngle (head ++ [block]) =
      located splitAngle head ++ [(turnOf splitAngle block.1, block.2)] := by
  simp [located]

theorem Follows.takeBlock {block : LidarBlock} (zero : 0 ≤ settings.splitAngle)
    (round : settings.splitAngle < 36000) (follows : Follows settings head decoder frames)
    (forwards : (head ++ [block]).IsChain (Forwards settings.splitAngle)) :
    ∃ later, (takeBlock settings decoder (wrapped block)).2.foldl BufferEvent.fill
        (frames, decoder.pointCloud) =
        (later, (LidarDecoder.takeBlock settings decoder (wrapped block)).1.pointCloud) ∧
      Follows settings (head ++ [block])
        (LidarDecoder.takeBlock settings decoder (wrapped block)).1 later := by
  obtain ⟨angle, filled, cloud⟩ :=
    takeBlock_fill settings decoder (wrapped block) frames
  cases follows with
  | start empty =>
    refine ⟨_, filled, .moving ?_ ?_ angle⟩
    · rw [located_concat, cloud]
      simp only [empty, closed, List.isEmpty_nil, if_true, List.nil_append, ite_self]
      exact .first _ _
    · simp [located]
  | @moving head last _ _ cut behind before =>
    have ahead : Forwards settings.splitAngle last block := by
      rw [List.append_assoc] at forwards
      have tail := (List.isChain_append.mp forwards).2.1
      exact (List.isChain_cons_cons.mp tail).1
    have turns := newBlock_turn zero round ahead
    have reached : turnOf settings.splitAngle last.1 ≤ turnOf settings.splitAngle block.1 := by
      omega
    refine ⟨_, filled, .moving ?_ ?_ angle⟩
    · rw [located_concat, cloud, before]
      rcases turns with ⟨crossed, rises⟩ | ⟨crossed, same⟩
      · simp only [wrapped, crossed, if_true]
        have fresh : turnOf settings.splitAngle block.1 ∉
            (located settings.splitAngle (head ++ [last])).map Prod.fst := by
          intro member
          have low := behind _ member
          omega
        exact cut.fresh fresh block.2
      · simp only [wrapped, crossed]
        rw [same] at cut
        exact cut.same block.2
    · rw [located_concat, List.map_append]
      intro turn member
      rcases List.mem_append.mp member with there | there
      · exact Int.le_trans (behind turn there) reached
      · obtain rfl : turn = turnOf settings.splitAngle block.1 := by simpa using there
        exact Int.le_refl _

theorem Follows.takeBlocks {blocks : List LidarBlock} (zero : 0 ≤ settings.splitAngle)
    (round : settings.splitAngle < 36000) (follows : Follows settings head decoder frames)
    (forwards : (head ++ blocks).IsChain (Forwards settings.splitAngle)) :
    ∃ later, (takeBlocks settings decoder (blocks.map wrapped)).2.foldl BufferEvent.fill
        (frames, decoder.pointCloud) =
        (later, (LidarDecoder.takeBlocks settings decoder (blocks.map wrapped)).1.pointCloud) ∧
      Follows settings (head ++ blocks)
        (LidarDecoder.takeBlocks settings decoder (blocks.map wrapped)).1 later := by
  induction blocks generalizing head decoder frames with
  | nil => exact ⟨frames, rfl, by simpa [LidarDecoder.takeBlocks] using follows⟩
  | cons block rest ih =>
    have joined : head ++ block :: rest = head ++ [block] ++ rest := by simp
    rw [joined] at forwards ⊢
    obtain ⟨middle, filled, follows⟩ :=
      follows.takeBlock zero round (List.isChain_append.mp forwards).1
    obtain ⟨later, after, follows⟩ := ih follows forwards
    refine ⟨later, ?_, follows⟩
    simp only [List.map_cons, LidarDecoder.takeBlocks, List.foldl_append, filled]
    exact after

theorem readMsopPkt_keeps (settings : LidarSettings) (floats : LidarFloats)
    (decoder : LidarDecoder) (pkt : LidarPacket) :
    (readMsopPkt settings floats decoder pkt).1.pointCloud = decoder.pointCloud ∧
      (readMsopPkt settings floats decoder pkt).1.prevAngle = decoder.prevAngle := by
  unfold readMsopPkt decodeMsopPkt
  split
  · exact ⟨rfl, rfl⟩
  split
  · exact ⟨rfl, rfl⟩
  split
  · exact ⟨rfl, rfl⟩
  split
  · exact ⟨rfl, rfl⟩
  dsimp only
  split <;> exact ⟨rfl, rfl⟩

theorem processDifopPkt_keeps (floats : LidarFloats) (decoder : LidarDecoder) (pkt : LidarPacket) :
    (processDifopPkt floats decoder pkt).pointCloud = decoder.pointCloud ∧
      (processDifopPkt floats decoder pkt).prevAngle = decoder.prevAngle := by
  unfold processDifopPkt decodeDifopPkt
  split
  · exact ⟨rfl, rfl⟩
  split
  · exact ⟨rfl, rfl⟩
  dsimp only
  split
  · exact ⟨rfl, rfl⟩
  split <;> exact ⟨rfl, rfl⟩

/-- While no turn has too many points, no cloud is thrown away. -/
theorem Follows.clearOverflow {blocks : List LidarBlock}
    (follows : Follows settings head decoder frames)
    (room : ∀ turn, (members (located settings.splitAngle (head ++ blocks)) turn).length ≤
      CloudBuffers.cloudPointMax) : clearOverflow decoder = (decoder, []) := by
  have fits : ¬CloudBuffers.cloudPointMax < decoder.pointCloud.length := by
    cases follows with
    | start empty => simp [empty]
    | @moving head last _ _ cut =>
      have bound := room (turnOf settings.splitAngle last.1)
      have part := length_members_append (located settings.splitAngle (head ++ [last]))
        (located settings.splitAngle blocks) (turnOf settings.splitAngle last.1)
      rw [located, List.map_append] at bound
      rw [← cut.current] at part
      exact Nat.not_lt.mpr (part.trans bound)
  rw [LidarDecoder.clearOverflow, if_neg fits]

theorem Follows.internalProcessPacket {pkt : LidarPacket} {now rest : List LidarBlock}
    (zero : 0 ≤ settings.splitAngle) (round : settings.splitAngle < 36000)
    (follows : Follows settings head decoder frames)
    (read : (internalProcessPacket settings floats decoder pkt).2.2 = now.map wrapped)
    (forwards : (head ++ now).IsChain (Forwards settings.splitAngle))
    (room : ∀ turn, (members (located settings.splitAngle (head ++ rest)) turn).length ≤
      CloudBuffers.cloudPointMax) :
    ∃ later, (internalProcessPacket settings floats decoder pkt).2.1.foldl BufferEvent.fill
        (frames, decoder.pointCloud) =
        (later, (LidarDecoder.internalProcessPacket settings floats decoder pkt).1.pointCloud) ∧
      Follows settings (head ++ now)
        (LidarDecoder.internalProcessPacket settings floats decoder pkt).1 later := by
  unfold LidarDecoder.internalProcessPacket at read ⊢
  split
  · next msop =>
    rw [if_pos msop] at read
    simp only [processMsopPkt, follows.clearOverflow room] at read ⊢
    obtain ⟨cloud, angle⟩ := readMsopPkt_keeps settings floats decoder pkt
    have follows := follows.congr cloud angle
    rw [read, List.nil_append, ← cloud]
    exact follows.takeBlocks zero round forwards
  · next other =>
    rw [if_neg other] at read
    split
    · next difop =>
      rw [if_pos difop] at read
      obtain rfl : now = [] := by simpa using read.symm
      obtain ⟨cloud, angle⟩ := processDifopPkt_keeps floats decoder pkt
      refine ⟨frames, by simp [cloud], ?_⟩
      rw [List.append_nil]
      exact follows.congr cloud angle
    · next unknown =>
      rw [if_neg unknown] at read
      obtain rfl : now = [] := by simpa using read.symm
      exact ⟨frames, rfl, by simpa using follows⟩

theorem Follows.processPacket {packets : List LidarPacket} {blocks : List LidarBlock}
    (zero : 0 ≤ settings.splitAngle) (round : settings.splitAngle < 36000)
    (follows : Follows settings head decoder frames)
    (read : (processPacket settings floats decoder packets).2.2 = blocks.map wrapped)
    (forwards : (head ++ blocks).IsChain (Forwards settings.splitAngle))
    (room : ∀ turn, (members (located settings.splitAngle (head ++ blocks)) turn).length ≤
      CloudBuffers.cloudPointMax) :
    ∃ later, (processPacket settings floats decoder packets).2.1.foldl BufferEvent.fill
        (frames, decoder.pointCloud) =
        (later, (LidarDecoder.processPacket settings floats decoder packets).1.pointCloud) ∧
      Follows settings (head ++ blocks)
        (LidarDecoder.processPacket settings floats decoder packets).1 later := by
  induction packets generalizing head decoder frames blocks with
  | nil =>
    obtain rfl : blocks = [] := by simpa [LidarDecoder.processPacket] using read.symm
    exact ⟨frames, rfl, by simpa [LidarDecoder.processPacket] using follows⟩
  | cons pkt packets ih =>
    simp only [LidarDecoder.processPacket] at read ⊢
    obtain ⟨now, rest, rfl, here, there⟩ := List.append_eq_map_iff.mp read
    rw [← List.append_assoc] at forwards room ⊢
    have first := (List.isChain_append.mp forwards).1
    rw [List.append_assoc] at room
    obtain ⟨middle, filled, follows⟩ :=
      follows.internalProcessPacket zero round here.symm first room
    rw [← List.append_assoc] at room
    obtain ⟨later, after, follows⟩ := ih follows there.symm forwards room
    exact ⟨later, by rw [List.foldl_append, filled]; exact after, follows⟩

theorem Follows.groups_eq (follows : Follows settings head decoder frames) :
    groups (located settings.splitAngle head) = frames ++ closed decoder.pointCloud := by
  cases follows with
  | start empty => simp [located, groups, closed, empty]
  | moving cut => exact cut.groups_eq

/-- Every cloud that is processed is one turn of the head: the turns come in order, and none is cut
or joined to another. -/
theorem turns_processed {packets : List LidarPacket} {legal : LidarPoint → Bool}
    {events : List (BufferEvent LidarPoint)} {state : CloudBuffers LidarPoint}
    (zero : 0 ≤ settings.splitAngle) (round : settings.splitAngle < 36000)
    (read : (processPacket settings floats (initial settings) packets).2.2 = head.map wrapped)
    (forwards : head.IsChain (Forwards settings.splitAngle))
    (room : ∀ turn, (members (located settings.splitAngle head) turn).length ≤
      CloudBuffers.cloudPointMax)
    (run : exec (CloudBuffers.step legal) CloudBuffers.initial events = some state)
    (lidar : events.filter BufferEvent.ofLidar <+:
      (processPacket settings floats (initial settings) packets).2.1) :
    state.split <+: groups (located settings.splitAngle head) ∧
      ∃ kept : List (List LidarPoint), kept.Sublist state.split ∧
        state.processed = kept.map (List.filter legal) := by
  constructor
  · have started : Follows settings [] (initial settings) [] := .start rfl
    obtain ⟨frames, handed, follows⟩ := started.processPacket zero round read forwards room
    have blank : CloudBuffers.Filled ([], []) (CloudBuffers.initial : CloudBuffers LidarPoint) :=
      ⟨rfl, fun _ _ => rfl⟩
    have filled := blank.exec run
    have calls := @BufferEvent.frames_mono _ ([], []) _ _ lidar
    rw [BufferEvent.foldl_ofLidar, ← filled.split] at calls
    rw [show (initial settings).pointCloud = [] from rfl] at handed
    rw [handed] at calls
    rw [List.nil_append] at follows
    rw [follows.groups_eq]
    exact calls.trans (List.prefix_append _ _)
  · have order := CloudBuffers.inOrder_of_reachable ⟨events, run⟩
    obtain ⟨kept, waiting, whole, processed, -⟩ := List.map_eq_append_iff.mp order.clouds
    refine ⟨kept, ?_, processed.symm⟩
    have accepted := (List.sublist_append_left _ _).trans order.split
    exact (whole ▸ List.sublist_append_left kept waiting).trans accepted

/-- The blocks of `twoPackets`, and the second turn of the head. -/
def twoTurns : List LidarBlock :=
  [(35990, [.seen 1000 0 35990 35990 7]), (35990, [.seen 1000 0 35999 35999 7]),
    (36010, [.seen 1000 0 10 10 7])]

def twoTurnsSplit : List (BufferEvent LidarPoint) :=
  [.point (.seen 1000 0 35990 35990 7), .point (.seen 1000 0 35999 35999 7), .splitFrame,
    .returnCloud, .getCloud, .popWait, .saveFullCloud, .makeCloud, .point (.seen 1000 0 10 10 7),
    .makeCloud, .makeCloud]

def everyPoint (_ : LidarPoint) : Bool := true

def twoTurnsState : CloudBuffers LidarPoint :=
  (exec (CloudBuffers.step everyPoint) CloudBuffers.initial twoTurnsSplit).getD
    CloudBuffers.initial

theorem turns_processed_twoTurns :
    twoTurnsState.split <+: groups (located initRsParam.splitAngle twoTurns) ∧
      ∃ kept : List (List LidarPoint), kept.Sublist twoTurnsState.split ∧
        twoTurnsState.processed = kept.map (List.filter everyPoint) := by
  have forwards : twoTurns.IsChain (Forwards initRsParam.splitAngle) := by
    simp [twoTurns, Forwards, initRsParam]
  have room (turn : Int) : (members (located initRsParam.splitAngle twoTurns) turn).length ≤
      CloudBuffers.cloudPointMax := (length_members_le _ turn).trans (by decide)
  have run : exec (CloudBuffers.step everyPoint) CloudBuffers.initial twoTurnsSplit =
      some twoTurnsState := rfl
  have lidar : twoTurnsSplit.filter BufferEvent.ofLidar <+: twoPacketsCalls := List.prefix_refl _
  rw [← twoPackets_decoded.1] at lidar
  exact turns_processed (by decide) (by decide) twoPackets_decoded.2 forwards room run lidar

end LidarDecoder

end AutoDrop
