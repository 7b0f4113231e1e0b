import AutoDrop.CliConfig
import AutoDrop.RelayTarget

/-! The scale that the chute stays on as long as the CLI commands it. -/

namespace AutoDrop

/-- The command `set_lc_open` of the CLI: the device, and the threshold that it is sent. -/
def cliSetLcOpen : List Chars → Except String (Chars × Int)
  | name :: value :: _ =>
      match stoi value with
      | none => .error "stoi"
      | some threshold =>
          if threshold < 0 ∨ 100 < threshold then .error "阈值不能小于0或大于100"
          else .ok (name, threshold)
  | params => .error (checkParams params ["设备名", "开关阈值"])

namespace LcRelay

open LabelledRun

def getLcOpen (relay : LcRelay) : Int := relay.lcOpenThreshold

def Admitted : RelayLabel → Prop
  | .setLcOpen threshold => 0 ≤ threshold ∧ threshold ≤ 100
  | .tick => True

instance : DecidablePred Admitted
  | .setLcOpen _ => inferInstanceAs (Decidable (_ ∧ _))
  | .tick => inferInstanceAs (Decidable True)

theorem admitted_of_cliSetLcOpen {params : List Chars} {name : Chars} {threshold : Int}
    (sent : cliSetLcOpen params = .ok (name, threshold)) : Admitted (.setLcOpen threshold) := by
  unfold cliSetLcOpen at sent
  split at sent
  · split at sent
    · cases sent
    · split at sent
      · cases sent
      · rename_i within
        simp only [Except.ok.injEq, Prod.mk.injEq] at sent
        obtain ⟨-, rfl⟩ := sent
        exact ⟨by omega, by omega⟩
  · cases sent

/-- A chute that moves has not reached the end that it moves towards. -/
structure OnScale (coe : Int) (relay : LcRelay) : Prop where
  closed : 0 ≤ relay.stateStayPosition
  opened : relay.stateStayPosition ≤ 100 / coe
  target : 0 ≤ relay.expectPosition ∧ relay.expectPosition ≤ 100 / coe
  opening : relay.relayState = .holdOpen → relay.stateStayPosition < 100 / coe
  closing : relay.relayState = .holdClose → 0 < relay.stateStayPosition
  shown : 0 ≤ relay.getLcOpen ∧ relay.getLcOpen ≤ 100

theorem start_onScale {coe : Int} (positive : 0 < coe) : OnScale coe start := by
  have scale : 0 ≤ 100 / coe := Int.ediv_nonneg (by decide) (Int.le_of_lt positive)
  refine ⟨Int.le_refl 0, scale, ⟨Int.le_refl 0, scale⟩, ?_, ?_, ⟨Int.le_refl 0, ?_⟩⟩
  · simp [start]
  · simp [start]
  · simp [getLcOpen, start]

theorem scale_le (coe : Int) : 100 / coe ≤ 100 :=
  Int.ediv_le_self coe (by decide)

theorem tdiv_onScale {coe threshold : Int} (positive : 0 < coe)
    (admitted : Admitted (.setLcOpen threshold)) :
    0 ≤ threshold.tdiv coe ∧ threshold.tdiv coe ≤ 100 / coe := by
  obtain ⟨low, high⟩ := admitted
  rw [Int.tdiv_eq_ediv_of_nonneg low]
  exact ⟨Int.ediv_nonneg low (Int.le_of_lt positive), Int.ediv_le_ediv positive high⟩

theorem executeToThreshold_onScale {coe threshold : Int} {relay : LcRelay} (positive : 0 < coe)
    (onScale : OnScale coe relay) (admitted : Admitted (.setLcOpen threshold)) :
    OnScale coe (relay.executeToThreshold coe threshold).1 := by
  have target := tdiv_onScale positive admitted
  have scale := scale_le coe
  have closed := onScale.closed
  have opened := onScale.opened
  have near : InInt32 (threshold.tdiv coe - relay.stateStayPosition) := by
    unfold InInt32
    omega
  rw [executeToThreshold_fst, toInt32_of_inInt32 near]
  refine ⟨closed, opened, target, fun opening => ?_, fun closing => ?_, onScale.shown⟩
  · dsimp only at opening ⊢
    split at opening
    · omega
    · split at opening
      · cases opening
      · exact onScale.opening opening
  · dsimp only at closing ⊢
    split at closing
    · cases closing
    · split at closing
      · omega
      · exact onScale.closing closing

theorem move_onScale {coe : Int} {relay : LcRelay} (onScale : OnScale coe relay) :
    0 ≤ relay.move.stateStayPosition ∧ relay.move.stateStayPosition ≤ 100 / coe ∧
      relay.move.expectPosition = relay.expectPosition ∧
      relay.move.relayState = relay.relayState := by
  obtain ⟨closed, opened, -, opening, closing, -⟩ := onScale
  have scale := scale_le coe
  cases state : relay.relayState with
  | stop =>
      have rests : relay.move = relay := by simp [move, state]
      rw [rests]
      exact ⟨closed, opened, rfl, state⟩
  | holdOpen =>
      have below := opening state
      have next : toInt32 (relay.stateStayPosition + 1) = relay.stateStayPosition + 1 :=
        toInt32_of_inInt32 ⟨by omega, by omega⟩
      simp only [move, state, next, and_true]
      exact ⟨by omega, by omega⟩
  | holdClose =>
      have above := closing state
      have next : toInt32 (relay.stateStayPosition - 1) = relay.stateStayPosition - 1 :=
        toInt32_of_inInt32 ⟨by omega, by omega⟩
      simp only [move, state, next, and_true]
      exact ⟨by omega, by omega⟩

theorem shown_onScale {coe position : Int} (positive : 0 < coe) (closed : 0 ≤ position)
    (opened : position ≤ 100 / coe) :
    0 ≤ toInt32 (position * coe) ∧ toInt32 (position * coe) ≤ 100 := by
  have low : 0 ≤ position * coe := Int.mul_nonneg closed (Int.le_of_lt positive)
  have high : position * coe ≤ 100 := (Int.le_ediv_iff_mul_le positive).mp opened
  rw [toInt32_of_inInt32 ⟨by omega, by omega⟩]
  exact ⟨low, high⟩

theorem relayTick_onScale {coe : Int} {relay : LcRelay} (positive : 0 < coe)
    (onScale : OnScale coe relay) : OnScale coe (relay.relayTick coe).1 := by
  obtain ⟨closed, opened, target, state⟩ := move_onScale onScale
  have shown := shown_onScale positive closed opened
  have within := onScale.target
  unfold relayTick
  dsimp only
  split
  · exact ⟨closed, opened, target ▸ within, by simp [relayDoAction], by simp [relayDoAction], shown⟩
  · rename_i farther
    simp only [arrived, Bool.or_eq_true, Bool.and_eq_true, decide_eq_true_eq, not_or,
      not_and] at farther
    refine ⟨closed, opened, target ▸ within, fun opening => ?_, fun closing => ?_, shown⟩
    · have short := farther.1 opening
      dsimp only
      omega
    · have short := farther.2 closing
      dsimp only
      omega

theorem step_onScale {coe : Int} (positive : 0 < coe) {relay next : LcRelay} {label : RelayLabel}
    (onScale : OnScale coe relay) (admitted : Admitted label)
    (taken : step coe relay label = some next) : OnScale coe next := by
  have moved := step_cases taken
  cases label with
  | setLcOpen threshold =>
      obtain ⟨-, rfl⟩ := moved
      exact executeToThreshold_onScale positive onScale admitted
  | tick =>
      obtain rfl : (relay.relayTick coe).1 = next := moved
      exact relayTick_onScale positive onScale

/-- The position never leaves the scale, whatever commands interrupt the moves. -/
theorem reachable_onScale (coe : Int) (positive : 1 ≤ coe) (labels : List RelayLabel)
    (admitted : ∀ label ∈ labels, Admitted label) (relay : LcRelay)
    (run : exec (step coe) start labels = some relay) :
    0 ≤ relay.stateStayPosition ∧ relay.stateStayPosition ≤ 100 / coe ∧
      0 ≤ relay.getLcOpen ∧ relay.getLcOpen ≤ 100 := by
  have onScale : OnScale coe relay := invariant_of_exec
    (fun _ _ _ onScale admitted taken => step_onScale positive onScale admitted taken)
    (start_onScale positive) admitted run
  exact ⟨onScale.closed, onScale.opened, onScale.shown⟩

theorem reachable_onScale_interrupted :
    ∃ relay, exec (step 30) start [.setLcOpen 100, .tick, .tick, .setLcOpen 60, .tick,
      .setLcOpen 0, .tick] = some relay ∧ relay.stateStayPosition = 2 ∧
      0 ≤ relay.getLcOpen ∧ relay.getLcOpen ≤ 100 := by
  refine ⟨_, rfl, rfl, ?_⟩
  exact (reachable_onScale 30 (by decide) [.setLcOpen 100, .tick, .tick, .setLcOpen 60, .tick,
    .setLcOpen 0, .tick] (by decide) _ rfl).2.2

end LcRelay

end AutoDrop
