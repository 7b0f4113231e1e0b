import AutoDrop.RelayTarget
import Mathlib.Logic.Function.Iterate

/-! When a moving chute comes to rest by itself. -/

namespace AutoDrop.LcRelay

open LabelledRun

def ticks (coe : Int) (count : Nat) (relay : LcRelay) : LcRelay :=
  (fun before => (relayTick coe before).1)^[count] relay

def distance (relay : LcRelay) : Nat :=
  (relay.expectPosition - relay.stateStayPosition).natAbs

/-- Without further commands the relay stops in time and stays so. -/
def Rests (coe : Int) (relay : LcRelay) : Prop :=
  ∃ count, count ≤ max 1 relay.distance ∧
    ∀ later, count ≤ later → (relay.ticks coe later).relayState = .stop

/-- How far the target lies ahead in the direction of motion; negative if it lies behind. -/
def ahead (relay : LcRelay) : Int :=
  match relay.relayState with
  | .holdOpen => relay.expectPosition - relay.stateStayPosition
  | .holdClose => relay.stateStayPosition - relay.expectPosition
  | .stop => 0

/-- The next tick runs the position over the end of `int`. -/
def AtEdge (relay : LcRelay) : Prop :=
  relay.relayState = .holdOpen ∧ relay.stateStayPosition = 2 ^ 31 - 1 ∨
    relay.relayState = .holdClose ∧ relay.stateStayPosition = -2 ^ 31

instance (relay : LcRelay) : Decidable (AtEdge relay) :=
  inferInstanceAs (Decidable (_ ∨ _))

structure Bounded (relay : LcRelay) : Prop where
  stay : InInt32 relay.stateStayPosition
  expect : InInt32 relay.expectPosition

theorem toInt32_inInt32 (value : Int) : InInt32 (toInt32 value) := by
  unfold InInt32 toInt32
  omega

theorem relayTick_bounded (coe : Int) {relay : LcRelay} (bounded : Bounded relay) :
    Bounded (relay.relayTick coe).1 := by
  have moved : Bounded relay.move := by
    unfold move
    split
    · exact ⟨toInt32_inInt32 _, bounded.expect⟩
    · exact ⟨toInt32_inInt32 _, bounded.expect⟩
    · exact bounded
  unfold relayTick
  dsimp only
  split
  · exact ⟨moved.stay, moved.expect⟩
  · exact ⟨moved.stay, moved.expect⟩

@[simp] theorem relayTick_expectPosition (coe : Int) (relay : LcRelay) :
    (relay.relayTick coe).1.expectPosition = relay.expectPosition := by
  have moved : relay.move.expectPosition = relay.expectPosition := by
    unfold move
    split <;> rfl
  unfold relayTick
  dsimp only
  split
  · exact moved
  · exact moved

theorem relayTick_relayState (coe : Int) (relay : LcRelay) :
    (relay.relayTick coe).1.relayState = relay.relayState ∨
      (relay.relayTick coe).1.relayState = .stop := by
  have kept : relay.move.relayState = relay.relayState := by
    unfold move
    split <;> rfl
  unfold relayTick
  dsimp only
  split
  · exact .inr rfl
  · exact .inl kept

theorem relayTick_of_stop (coe : Int) {relay : LcRelay} (rest : relay.relayState = .stop) :
    (relay.relayTick coe).1.relayState = .stop := by
  simp [relayTick, move, arrived, rest]

/-- What is ahead behind a tick, with the wrap-around at the edge. -/
def aheadAfter (relay : LcRelay) : Int :=
  if relay.AtEdge then relay.ahead - 1 + 2 ^ 32 else relay.ahead - 1

theorem move_position {relay : LcRelay} (bounded : Bounded relay) :
    (relay.relayState = .holdOpen →
      relay.move.stateStayPosition = relay.expectPosition - relay.aheadAfter) ∧
    (relay.relayState = .holdClose →
      relay.move.stateStayPosition = relay.expectPosition + relay.aheadAfter) := by
  obtain ⟨stay, expect⟩ := bounded
  unfold InInt32 at stay expect
  constructor
  · intro state
    simp only [move, aheadAfter, AtEdge, ahead, state, toInt32, true_and, reduceCtorEq, false_and,
      or_false]
    split
    · omega
    · omega
  · intro state
    simp only [move, aheadAfter, AtEdge, ahead, state, toInt32, true_and, reduceCtorEq, false_and,
      false_or]
    split
    · omega
    · omega

@[simp] theorem relayTick_position (coe : Int) (relay : LcRelay) :
    (relay.relayTick coe).1.stateStayPosition = relay.move.stateStayPosition := by
  unfold relayTick
  dsimp only
  split
  · rfl
  · rfl

theorem move_arrived_iff {relay : LcRelay} (bounded : Bounded relay)
    (moving : relay.relayState ≠ .stop) :
    relay.move.relayState = relay.relayState ∧
      (relay.move.arrived = true ↔ relay.aheadAfter ≤ 0) := by
  obtain ⟨opening, closing⟩ := move_position bounded
  cases state : relay.relayState with
  | stop => exact (moving state).elim
  | holdOpen =>
      have position := opening state
      have kept : relay.move.relayState = .holdOpen := by simp [move, state]
      have target : relay.move.expectPosition = relay.expectPosition := by simp [move, state]
      refine ⟨kept, ?_⟩
      simp only [arrived, kept, position, target, decide_true, Bool.true_and, reduceCtorEq,
        decide_false, Bool.false_and, Bool.or_false, decide_eq_true_eq]
      omega
  | holdClose =>
      have position := closing state
      have kept : relay.move.relayState = .holdClose := by simp [move, state]
      have target : relay.move.expectPosition = relay.expectPosition := by simp [move, state]
      refine ⟨kept, ?_⟩
      simp only [arrived, kept, position, target, decide_true, Bool.true_and, reduceCtorEq,
        decide_false, Bool.false_and, Bool.false_or, decide_eq_true_eq]
      omega

theorem relayTick_moving (coe : Int) {relay : LcRelay} (bounded : Bounded relay)
    (moving : relay.relayState ≠ .stop) :
    (relay.aheadAfter ≤ 0 → (relay.relayTick coe).1.relayState = .stop) ∧
      (0 < relay.aheadAfter → (relay.relayTick coe).1.relayState ≠ .stop ∧
        (relay.relayTick coe).1.ahead = relay.aheadAfter) := by
  obtain ⟨kept, reached⟩ := move_arrived_iff bounded moving
  constructor
  · intro there
    simp [relayTick, reached.mpr there, relayDoAction]
  · intro farther
    have short : relay.move.arrived = false := by
      rw [Bool.eq_false_iff, ne_eq, reached]
      omega
    have state : (relay.relayTick coe).1.relayState = relay.relayState := by
      simp [relayTick, short, kept]
    refine ⟨state ▸ moving, ?_⟩
    obtain ⟨opening, closing⟩ := move_position bounded
    rw [ahead, state, relayTick_expectPosition, relayTick_position]
    cases way : relay.relayState with
    | stop => exact (moving way).elim
    | holdOpen =>
        rw [opening way]
        dsimp only
        omega
    | holdClose =>
        rw [closing way]
        dsimp only
        omega

theorem relayTick_arrives (coe : Int) {relay : LcRelay} (bounded : Bounded relay)
    (moving : relay.relayState ≠ .stop) (last : relay.aheadAfter = 0) :
    (relay.relayTick coe).1.stateStayPosition = relay.expectPosition := by
  obtain ⟨opening, closing⟩ := move_position bounded
  rw [relayTick_position]
  cases way : relay.relayState with
  | stop => exact (moving way).elim
  | holdOpen => rw [opening way, last, Int.sub_zero]
  | holdClose => rw [closing way, last, Int.add_zero]

theorem ticks_add (coe : Int) (first second : Nat) (relay : LcRelay) :
    relay.ticks coe (first + second) = (relay.ticks coe first).ticks coe second := by
  rw [ticks, Nat.add_comm, Function.iterate_add_apply]
  rfl

theorem ticks_of_stop (coe : Int) (count : Nat) {relay : LcRelay}
    (rest : relay.relayState = .stop) : (relay.ticks coe count).relayState = .stop := by
  induction count generalizing relay with
  | zero => exact rest
  | succ count ih => exact ih (relayTick_of_stop coe rest)

theorem AtEdge.moving {relay : LcRelay} (edge : relay.AtEdge) : relay.relayState ≠ .stop := by
  intro rest
  rcases edge with ⟨state, _⟩ | ⟨state, _⟩
  · simp [rest] at state
  · simp [rest] at state

theorem ahead_nonpos_of_atEdge {relay : LcRelay} (bounded : Bounded relay) (edge : relay.AtEdge) :
    relay.ahead ≤ 0 := by
  obtain ⟨_, expect⟩ := bounded
  unfold InInt32 at expect
  rcases edge with ⟨state, position⟩ | ⟨state, position⟩
  · simp only [ahead, state]
    omega
  · simp only [ahead, state]
    omega

theorem moving_of_ahead {relay : LcRelay} (target : 0 < relay.ahead) :
    relay.relayState ≠ .stop := by
  intro rest
  simp [ahead, rest] at target

theorem aheadAfter_of_ahead {relay : LcRelay} (bounded : Bounded relay)
    (target : 0 < relay.ahead) : relay.aheadAfter = relay.ahead - 1 :=
  if_neg fun edge => Int.not_le.mpr target (ahead_nonpos_of_atEdge bounded edge)

theorem ticks_ahead (coe : Int) (count : Nat) {relay : LcRelay} (bounded : Bounded relay)
    (target : relay.ahead = count + 1) :
    ((relay.ticks coe (count + 1)).relayState = .stop ∧
        (relay.ticks coe (count + 1)).stateStayPosition = relay.expectPosition) ∧
      ∀ fewer, fewer ≤ count → (relay.ticks coe fewer).relayState ≠ .stop := by
  have moving : relay.relayState ≠ .stop := moving_of_ahead (by omega)
  have after := aheadAfter_of_ahead bounded (by omega)
  obtain ⟨stops, goes⟩ := relayTick_moving coe bounded moving
  induction count generalizing relay with
  | zero =>
      refine ⟨⟨stops (by omega), relayTick_arrives coe bounded moving (by omega)⟩, ?_⟩
      intro fewer none
      obtain rfl : fewer = 0 := by omega
      exact moving
  | succ count ih =>
      obtain ⟨still, left⟩ := goes (by omega)
      have later := relayTick_bounded coe bounded
      obtain ⟨⟨stopped, position⟩, before⟩ := ih later (by omega) still
        (aheadAfter_of_ahead later (by omega)) (relayTick_moving coe later still).1
        (relayTick_moving coe later still).2
      refine ⟨⟨stopped, position.trans (relayTick_expectPosition coe relay)⟩, ?_⟩
      intro fewer bound
      cases fewer with
      | zero => exact moving
      | succ fewer => exact before fewer (by omega)

theorem ahead_natAbs {relay : LcRelay} (moving : relay.relayState ≠ .stop) :
    relay.ahead.natAbs = relay.distance := by
  unfold ahead distance
  cases state : relay.relayState with
  | stop => exact (moving state).elim
  | holdOpen => rfl
  | holdClose =>
      dsimp only
      omega

theorem rests_of_ticks {coe : Int} {relay : LcRelay} {count : Nat}
    (few : count ≤ max 1 relay.distance) (stops : (relay.ticks coe count).relayState = .stop) :
    Rests coe relay := by
  refine ⟨count, few, fun later bound => ?_⟩
  obtain ⟨more, rfl⟩ := Nat.exists_eq_add_of_le bound
  rw [ticks_add]
  exact ticks_of_stop coe more stops

theorem rests_of_inside {coe : Int} {relay : LcRelay} (bounded : Bounded relay)
    (moving : relay.relayState ≠ .stop) (inside : ¬relay.AtEdge) : Rests coe relay := by
  have away := ahead_natAbs moving
  by_cases target : 0 < relay.ahead
  · obtain ⟨count, same⟩ : ∃ count : Nat, relay.ahead = count + 1 :=
      ⟨relay.ahead.toNat - 1, by omega⟩
    have stops := (ticks_ahead coe count bounded same).1.1
    exact rests_of_ticks (by omega) stops
  · have after : relay.aheadAfter = relay.ahead - 1 := if_neg inside
    have stopped : (relay.ticks coe 1).relayState = .stop :=
      (relayTick_moving coe bounded moving).1 (by omega)
    exact rests_of_ticks (Nat.le_max_left 1 _) stopped

/-- At the edge the position wraps, and the chute stops after a whole turn of `int`. -/
theorem rests_at_edge_iff {coe : Int} {relay : LcRelay} (bounded : Bounded relay)
    (edge : relay.AtEdge) : Rests coe relay ↔ relay.ahead ≤ -2 ^ 31 := by
  have moving := edge.moving
  have away := ahead_natAbs moving
  have after : relay.aheadAfter = relay.ahead - 1 + 2 ^ 32 := if_pos edge
  obtain ⟨stops, goes⟩ := relayTick_moving coe bounded moving
  by_cases there : relay.aheadAfter ≤ 0
  · have stopped : (relay.ticks coe 1).relayState = .stop := stops there
    exact iff_of_true (rests_of_ticks (Nat.le_max_left 1 _) stopped) (by omega)
  · obtain ⟨_, left⟩ := goes (by omega)
    obtain ⟨count, same⟩ : ∃ count : Nat, relay.aheadAfter = count + 1 :=
      ⟨relay.aheadAfter.toNat - 1, by omega⟩
    obtain ⟨⟨reached, _⟩, before⟩ :=
      ticks_ahead coe count (relayTick_bounded coe bounded) (by rw [left, same])
    constructor
    · rintro ⟨limit, few, stopped⟩
      by_contra short
      cases limit with
      | zero => exact moving (stopped 0 (Nat.le_refl 0))
      | succ limit => exact before limit (by omega) (stopped (limit + 1) (Nat.le_refl _))
    · intro far
      exact rests_of_ticks (show count + 2 ≤ _ by omega) reached

theorem rests_iff (coe : Int) {relay : LcRelay} (bounded : Bounded relay) :
    Rests coe relay ↔ (relay.AtEdge → relay.ahead ≤ -2 ^ 31) := by
  by_cases edge : relay.AtEdge
  · rw [rests_at_edge_iff bounded edge]
    exact ⟨fun far _ => far, fun far => far edge⟩
  · refine iff_of_true ?_ (fun other => (edge other).elim)
    by_cases rest : relay.relayState = .stop
    · have stopped : (relay.ticks coe 0).relayState = .stop := rest
      exact rests_of_ticks (Nat.zero_le _) stopped
    · exact rests_of_inside bounded rest edge

/-- A command does not aim at the present position of a chute that moves on over the end
of `int`. -/
def KeepsOff (coe : Int) (relay : LcRelay) : RelayLabel → Prop
  | .setLcOpen threshold => threshold.tdiv coe = relay.stateStayPosition → ¬relay.AtEdge
  | .tick => True

instance : ∀ coe relay label, Decidable (KeepsOff coe relay label)
  | coe, relay, .setLcOpen threshold =>
      inferInstanceAs (Decidable (threshold.tdiv coe = relay.stateStayPosition → ¬relay.AtEdge))
  | _, _, .tick => inferInstanceAs (Decidable True)

theorem executeToThreshold_rests_iff {coe threshold : Int} {relay : LcRelay}
    (bounded : Bounded relay) (positive : 0 < coe) (fits : InInt32 threshold) :
    Rests coe (relay.executeToThreshold coe threshold).1 ↔
      KeepsOff coe relay (.setLcOpen threshold) := by
  have target := tdiv_inInt32 fits positive
  have stay := bounded.stay
  have turned : Bounded (relay.executeToThreshold coe threshold).1 := by
    rw [executeToThreshold_fst]
    exact ⟨stay, target⟩
  rw [rests_iff coe turned, executeToThreshold_fst]
  have wrapped : toInt32 (threshold.tdiv coe - relay.stateStayPosition) =
      (threshold.tdiv coe - relay.stateStayPosition + 2 ^ 31) % 2 ^ 32 - 2 ^ 31 := rfl
  unfold InInt32 at target stay
  rcases Int.lt_trichotomy 0
    (toInt32 (threshold.tdiv coe - relay.stateStayPosition)) with opens | level | closes
  · rw [if_pos opens]
    refine iff_of_true ?_ (fun here => by omega)
    rintro (⟨_, position⟩ | ⟨state, _⟩)
    · dsimp only [ahead] at position ⊢
      omega
    · simp at state
  · rw [if_neg (by omega), if_neg (by omega)]
    have here : threshold.tdiv coe = relay.stateStayPosition := by omega
    have level : ahead { relay with expectPosition := threshold.tdiv coe } = 0 := by
      unfold ahead
      dsimp only
      split
      · omega
      · omega
      · rfl
    constructor
    · intro far _ edge
      have behind := far edge
      rw [level] at behind
      exact absurd behind (by decide)
    · intro off edge
      exact (off here edge).elim
  · rw [if_neg (by omega), if_pos closes]
    refine iff_of_true ?_ (fun here => by omega)
    rintro (⟨state, _⟩ | ⟨_, position⟩)
    · simp at state
    · dsimp only [ahead] at position ⊢
      omega

theorem relayTick_rests (coe : Int) {relay : LcRelay} (bounded : Bounded relay) :
    Rests coe (relay.relayTick coe).1 := by
  have after := relayTick_bounded coe bounded
  rw [rests_iff coe after]
  intro edge
  -- a chute that has not stopped has its target ahead behind a tick
  exfalso
  by_cases rest : relay.relayState = .stop
  · exact edge.moving (relayTick_of_stop coe rest)
  · obtain ⟨stops, goes⟩ := relayTick_moving coe bounded rest
    by_cases there : relay.aheadAfter ≤ 0
    · exact edge.moving (stops there)
    · have target := (goes (by omega)).2
      have behind := ahead_nonpos_of_atEdge after edge
      omega

theorem step_bounded {coe : Int} (positive : 0 < coe) {relay next : LcRelay} {label : RelayLabel}
    (bounded : Bounded relay) (taken : step coe relay label = some next) :
    Bounded next ∧ (Rests coe next ↔ KeepsOff coe relay label) := by
  have moved := step_cases taken
  cases label with
  | setLcOpen threshold =>
      obtain ⟨fits, rfl⟩ := moved
      refine ⟨?_, executeToThreshold_rests_iff bounded positive fits⟩
      rw [executeToThreshold_fst]
      exact ⟨bounded.stay, tdiv_inInt32 fits positive⟩
  | tick =>
      obtain rfl : (relay.relayTick coe).1 = next := moved
      exact ⟨relayTick_bounded coe bounded, iff_of_true (relayTick_rests coe bounded) trivial⟩

/-- The chute comes to rest from every state of a run exactly when no command of the run
aims at the present position of a chute that moves on over the end of `int`. -/
theorem always_rests_iff (coe : Int) (positive : 0 < coe) (labels : List RelayLabel)
    (final : LcRelay) (run : exec (step coe) start labels = some final) :
    Always (step coe) (Rests coe) start labels ↔ Meets (step coe) (KeepsOff coe) start labels := by
  have bounded : Bounded start := ⟨by decide, by decide⟩
  have initial : Bounded start ∧ Rests coe start :=
    ⟨bounded, (rests_iff coe bounded).mpr fun edge => (edge.moving rfl).elim⟩
  refine always_iff_meets (fun relay => And.right) ?_ ?_ initial run
  · intro relay label next invariant met taken
    obtain ⟨small, rests⟩ := step_bounded positive invariant.1 taken
    exact ⟨small, rests.mpr met⟩
  · intro relay label next invariant taken rests
    exact (step_bounded positive invariant.1 taken).2.mp rests

theorem always_rests_forty :
    Always (step 20) (Rests 20) start [.setLcOpen 40, .tick, .setLcOpen 20, .tick] := by
  refine (always_rests_iff 20 (by decide) _ _ rfl).mpr ?_
  decide

theorem exec_ticks (coe : Int) (count : Nat) (relay : LcRelay) :
    exec (step coe) relay (List.replicate count .tick) = some (relay.ticks coe count) := by
  induction count generalizing relay with
  | zero => rfl
  | succ count ih => exact ih (relay.relayTick coe).1

theorem step_setLcOpen {coe threshold : Int} (relay : LcRelay) (fits : InInt32 threshold)
    (positive : 0 < coe) :
    step coe relay (.setLcOpen threshold) = some (relay.executeToThreshold coe threshold).1 := by
  have present : coe ≠ 0 := by omega
  rw [step, relayStep, if_pos ⟨fits, present⟩, Option.map_some]

/-- A chute at rest at the last position is sent to -2, which the wrapped difference reads as
further opening, and then back to where it is. -/
theorem executeToThreshold_back {relay : LcRelay}
    (last : relay.stateStayPosition = 2 ^ 31 - 1) :
    ((relay.executeToThreshold 1 (-2)).1.executeToThreshold 1 (2 ^ 31 - 1)).1 =
      { relay with relayState := .holdOpen, expectPosition := 2 ^ 31 - 1 } := by
  have away : toInt32 ((-2 : Int).tdiv 1 - (2 ^ 31 - 1)) = 2 ^ 31 - 1 := by decide
  have whole : (2 ^ 31 - 1 : Int).tdiv 1 = 2 ^ 31 - 1 := by decide
  simp only [executeToThreshold_fst, last, away, whole]
  rfl

theorem not_rests_last {coe : Int} {relay : LcRelay} (opening : relay.relayState = .holdOpen)
    (last : relay.stateStayPosition = 2 ^ 31 - 1) (level : relay.expectPosition = 2 ^ 31 - 1) :
    ¬Rests coe relay := by
  have bounded : Bounded relay := by
    constructor
    · rw [last]
      decide
    · rw [level]
      decide
  rw [rests_iff coe bounded]
  intro far
  have behind := far (.inl ⟨opening, last⟩)
  rw [ahead, opening, last, level] at behind
  exact absurd behind (by decide)

/-- The commands open to `2^31 - 1`, to -2 and to `2^31 - 1` again, the second one where the
first has come to its end. -/
theorem rests_fails :
    ¬∀ (coe : Int) (relay : LcRelay), 0 < coe → Reachable (step coe) start relay →
      Rests coe relay := by
  intro all
  obtain ⟨opened, same⟩ : ∃ opened, opened = (start.executeToThreshold 1 (2 ^ 31 - 1)).1 :=
    ⟨_, rfl⟩
  obtain ⟨count, large⟩ : ∃ count : Nat, (count : Int) = 2 ^ 31 - 2 := ⟨2 ^ 31 - 2, by decide⟩
  have opening : Bounded opened ∧ opened.ahead = 2 ^ 31 - 2 + 1 ∧
      opened.expectPosition = 2 ^ 31 - 1 := by
    rw [same]
    exact ⟨⟨by decide, by decide⟩, by decide, by decide⟩
  obtain ⟨bounded, target, expect⟩ := opening
  obtain ⟨⟨_, position⟩, _⟩ := ticks_ahead 1 count bounded (large ▸ target)
  have last := position.trans expect
  obtain ⟨turned, moving, here, level, reached⟩ : ∃ turned : LcRelay,
      turned.relayState = .holdOpen ∧ turned.stateStayPosition = 2 ^ 31 - 1 ∧
        turned.expectPosition = 2 ^ 31 - 1 ∧ Reachable (step 1) start turned := by
    refine ⟨{ ticks 1 (count + 1) opened with
      relayState := .holdOpen, expectPosition := 2 ^ 31 - 1 }, rfl, last, rfl,
      .setLcOpen (2 ^ 31 - 1) :: (List.replicate (count + 1) .tick ++
        [.setLcOpen (-2), .setLcOpen (2 ^ 31 - 1)]), ?_⟩
    rw [exec, step_setLcOpen _ (by decide) (by decide), ← same, Option.bind_some, exec_append,
      exec_ticks, Option.bind_some, exec, step_setLcOpen _ (by decide) (by decide),
      Option.bind_some, exec, step_setLcOpen _ (by decide) (by decide), Option.bind_some, exec,
      executeToThreshold_back last]
  exact not_rests_last moving here level (all 1 turned (by decide) reached)

end AutoDrop.LcRelay
