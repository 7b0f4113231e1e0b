import AutoDrop.RelayCore

/-! Where the chute stands when the relay stops. -/

namespace AutoDrop.LcRelay

open LabelledRun

structure OnCourse (relay : LcRelay) : Prop where
  stop : relay.relayState = .stop → relay.stateStayPosition = relay.expectPosition
  holdOpen : relay.relayState = .holdOpen → relay.stateStayPosition < relay.expectPosition
  holdClose : relay.relayState = .holdClose → relay.expectPosition < relay.stateStayPosition

/-- A command aims away from the present position unless the relay is at rest, and the
distance fits an `int`. -/
def AimsAway (coe : Int) (relay : LcRelay) : RelayLabel → Prop
  | .setLcOpen threshold =>
      (threshold.tdiv coe = relay.stateStayPosition → relay.relayState = .stop) ∧
        InInt32 (threshold.tdiv coe - relay.stateStayPosition)
  | .tick => True

instance : ∀ coe relay label, Decidable (AimsAway coe relay label)
  | _, _, .setLcOpen _ => inferInstanceAs (Decidable (_ ∧ _))
  | _, _, .tick => inferInstanceAs (Decidable True)

structure InRange (relay : LcRelay) : Prop where
  onCourse : OnCourse relay
  stay : InInt32 relay.stateStayPosition
  expect : InInt32 relay.expectPosition

theorem start_inRange : InRange start := by
  refine ⟨⟨fun _ => rfl, ?_, ?_⟩, by decide, by decide⟩
  · simp [start]
  · simp [start]

theorem toInt32_of_inInt32 {value : Int} (fits : InInt32 value) : toInt32 value = value := by
  unfold InInt32 at fits
  unfold toInt32
  omega

theorem tdiv_inInt32 {threshold coe : Int} (fits : InInt32 threshold) (positive : 0 < coe) :
    InInt32 (threshold.tdiv coe) := by
  have small := Int.natAbs_tdiv_le_natAbs threshold coe
  unfold InInt32 at fits ⊢
  rcases Int.le_total 0 threshold with up | down
  · omega
  · have sign := Int.tdiv_nonneg (show 0 ≤ -threshold by omega) (Int.le_of_lt positive)
    rw [Int.neg_tdiv] at sign
    omega

theorem executeToThreshold_fst (coe threshold : Int) (relay : LcRelay) :
    (relay.executeToThreshold coe threshold).1 =
      { relay with
        expectPosition := threshold.tdiv coe
        relayState :=
          if 0 < toInt32 (threshold.tdiv coe - relay.stateStayPosition) then .holdOpen
          else if toInt32 (threshold.tdiv coe - relay.stateStayPosition) < 0 then .holdClose
          else relay.relayState } := by
  unfold executeToThreshold
  split
  · rename_i ahead
    simp only [relayDoAction, ahead, ↓reduceIte]
  · rename_i notAhead
    split
    · rename_i behind
      simp only [relayDoAction, notAhead, behind, ↓reduceIte]
    · rename_i notBehind
      simp only [notAhead, notBehind, ↓reduceIte]

theorem executeToThreshold_inRange {coe threshold : Int} {relay : LcRelay}
    (inRange : InRange relay) (positive : 0 < coe) (fits : InInt32 threshold)
    (aims : AimsAway coe relay (.setLcOpen threshold)) :
    InRange (relay.executeToThreshold coe threshold).1 := by
  obtain ⟨away, near⟩ := aims
  have target := tdiv_inInt32 fits positive
  rw [executeToThreshold_fst, toInt32_of_inInt32 near]
  refine ⟨?_, inRange.stay, target⟩
  rcases Int.lt_trichotomy (threshold.tdiv coe) relay.stateStayPosition with below | level | above
  · rw [if_neg (by omega), if_pos (by omega)]
    exact ⟨fun other => by simp at other, fun other => by simp at other, fun _ => below⟩
  · rw [if_neg (by omega), if_neg (by omega)]
    have rest := away level
    exact ⟨fun _ => level.symm, fun other => by simp [rest] at other,
      fun other => by simp [rest] at other⟩
  · rw [if_pos (by omega)]
    exact ⟨fun other => by simp at other, fun _ => above, fun other => by simp at other⟩

theorem aimsAway_of_onCourse {coe threshold : Int} {relay : LcRelay} (inRange : InRange relay)
    (positive : 0 < coe) (fits : InInt32 threshold)
    (onCourse : OnCourse (relay.executeToThreshold coe threshold).1) :
    AimsAway coe relay (.setLcOpen threshold) := by
  have target := tdiv_inInt32 fits positive
  have stay := inRange.stay
  rw [executeToThreshold_fst] at onCourse
  obtain ⟨stop, holdOpen, holdClose⟩ := onCourse
  have wrapped : toInt32 (threshold.tdiv coe - relay.stateStayPosition) =
      (threshold.tdiv coe - relay.stateStayPosition + 2 ^ 31) % 2 ^ 32 - 2 ^ 31 := rfl
  unfold InInt32 at target stay
  rcases Int.lt_trichotomy 0
    (toInt32 (threshold.tdiv coe - relay.stateStayPosition)) with ahead | level | behind
  · rw [if_pos ahead] at holdOpen
    have truly := holdOpen rfl
    refine ⟨fun here => ?_, ?_⟩
    · dsimp only at truly
      omega
    · unfold InInt32
      dsimp only at truly
      omega
  · rw [if_neg (by omega), if_neg (by omega)] at holdOpen holdClose
    refine ⟨fun here => ?_, ?_⟩
    · cases moving : relay.relayState with
      | stop => rfl
      | holdOpen =>
          have truly := holdOpen moving
          dsimp only at truly
          omega
      | holdClose =>
          have truly := holdClose moving
          dsimp only at truly
          omega
    · unfold InInt32
      omega
  · rw [if_neg (by omega), if_pos behind] at holdClose
    have truly := holdClose rfl
    refine ⟨fun here => ?_, ?_⟩
    · dsimp only at truly
      omega
    · unfold InInt32
      dsimp only at truly
      omega

theorem relayTick_inRange (coe : Int) {relay : LcRelay} (inRange : InRange relay) :
    InRange (relay.relayTick coe).1 := by
  obtain ⟨⟨stop, holdOpen, holdClose⟩, stay, expect⟩ := inRange
  unfold InInt32 at stay expect
  cases state : relay.relayState with
  | stop =>
      have same : (relay.relayTick coe).1 =
          { relay with lcOpenThreshold := toInt32 (relay.stateStayPosition * coe) } := by
        simp [relayTick, move, arrived, state]
      rw [same]
      exact ⟨⟨stop, holdOpen, holdClose⟩, stay, expect⟩
  | holdOpen =>
      have before := holdOpen state
      have next : toInt32 (relay.stateStayPosition + 1) = relay.stateStayPosition + 1 :=
        toInt32_of_inInt32 ⟨by omega, by omega⟩
      by_cases there : relay.expectPosition ≤ relay.stateStayPosition + 1
      · simp only [relayTick, move, arrived, state, next, there, relayDoAction, decide_true,
          Bool.and_self, Bool.true_or, ↓reduceIte]
        exact ⟨⟨fun _ => by dsimp only; omega, fun other => by simp at other,
          fun other => by simp at other⟩, ⟨by dsimp only; omega, by dsimp only; omega⟩, expect⟩
      · simp only [relayTick, move, arrived, state, next, there, decide_true, decide_false,
          Bool.and_false, reduceCtorEq, Bool.false_and, Bool.or_self, Bool.false_eq_true,
          ↓reduceIte]
        exact ⟨⟨fun other => by simp at other, fun _ => by dsimp only; omega,
          fun other => by simp at other⟩, ⟨by dsimp only; omega, by dsimp only; omega⟩, expect⟩
  | holdClose =>
      have before := holdClose state
      have next : toInt32 (relay.stateStayPosition - 1) = relay.stateStayPosition - 1 :=
        toInt32_of_inInt32 ⟨by omega, by omega⟩
      by_cases there : relay.stateStayPosition - 1 ≤ relay.expectPosition
      · simp only [relayTick, move, arrived, state, next, there, relayDoAction, decide_true,
          reduceCtorEq, decide_false, Bool.false_and, Bool.and_self, Bool.or_true, ↓reduceIte]
        exact ⟨⟨fun _ => by dsimp only; omega, fun other => by simp at other,
          fun other => by simp at other⟩, ⟨by dsimp only; omega, by dsimp only; omega⟩, expect⟩
      · simp only [relayTick, move, arrived, state, next, there, decide_true, decide_false,
          Bool.and_false, reduceCtorEq, Bool.false_and, Bool.or_self, Bool.false_eq_true,
          ↓reduceIte]
        exact ⟨⟨fun other => by simp at other, fun other => by simp at other,
          fun _ => by dsimp only; omega⟩, ⟨by dsimp only; omega, by dsimp only; omega⟩, expect⟩

/-- What a step runs, and what it checks first. -/
theorem step_cases {coe : Int} {relay next : LcRelay} {label : RelayLabel} :
    step coe relay label = some next →
    match label with
    | .setLcOpen threshold => InInt32 threshold ∧ (relay.executeToThreshold coe threshold).1 = next
    | .tick => (relay.relayTick coe).1 = next := by
  intro taken
  cases label with
  | setLcOpen threshold =>
      simp only [step, relayStep] at taken
      split at taken
      · rename_i guard
        exact ⟨guard.1, Option.some.inj taken⟩
      · cases taken
  | tick => exact Option.some.inj taken

theorem step_inRange {coe : Int} (positive : 0 < coe) {relay next : LcRelay} {label : RelayLabel}
    (inRange : InRange relay) (aims : AimsAway coe relay label)
    (taken : step coe relay label = some next) : InRange next := by
  have moved := step_cases taken
  cases label with
  | setLcOpen threshold =>
      obtain ⟨fits, rfl⟩ := moved
      exact executeToThreshold_inRange inRange positive fits aims
  | tick =>
      obtain rfl : (relay.relayTick coe).1 = next := moved
      exact relayTick_inRange coe inRange

theorem aims_of_step {coe : Int} (positive : 0 < coe) {relay next : LcRelay} {label : RelayLabel}
    (inRange : InRange relay) (taken : step coe relay label = some next)
    (onCourse : OnCourse next) : AimsAway coe relay label := by
  have moved := step_cases taken
  cases label with
  | setLcOpen threshold =>
      obtain ⟨fits, rfl⟩ := moved
      exact aimsAway_of_onCourse inRange positive fits onCourse
  | tick => trivial

/-- The chute stays on course through a run exactly when no command aims at the present
position of a moving chute, or farther away than an `int` can tell. -/
theorem always_onCourse_iff (coe : Int) (positive : 0 < coe) (labels : List RelayLabel)
    (final : LcRelay) (run : exec (step coe) start labels = some final) :
    Always (step coe) OnCourse start labels ↔ Meets (step coe) (AimsAway coe) start labels :=
  always_iff_meets (fun _ inRange => inRange.onCourse)
    (fun _ _ _ inRange aims taken => step_inRange positive inRange aims taken)
    (fun _ _ _ inRange taken onCourse => aims_of_step positive inRange taken onCourse)
    start_inRange run

theorem always_onCourse_forty :
    Always (step 20) OnCourse start [.setLcOpen 40, .tick, .tick] := by
  refine (always_onCourse_iff 20 (by decide) _ _ rfl).mpr ?_
  decide

/-- A command back to the position that the opening chute has just reached leaves the relay
open, and the next tick stops it one position too far. -/
theorem stops_off_target :
    ∃ moving stopped, exec (step 20) start [.setLcOpen 40, .tick, .setLcOpen 20] = some moving ∧
      moving.relayState = .holdOpen ∧ moving.stateStayPosition = moving.expectPosition ∧
      exec (step 20) start [.setLcOpen 40, .tick, .setLcOpen 20, .tick] = some stopped ∧
      stopped.relayState = .stop ∧ stopped.stateStayPosition ≠ stopped.expectPosition :=
  ⟨_, _, rfl, by decide, by decide, rfl, by decide, by decide⟩

end AutoDrop.LcRelay
