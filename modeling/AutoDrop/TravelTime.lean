import AutoDrop.RelayRest
import AutoDrop.RelayScale

/-!
How far `TASTEK_DRIVER` moves the chute for a threshold. The spend setting is any `long`; it
is divided into 100, and the threshold by the result.
-/

namespace AutoDrop

namespace LcRelay

/-- The relay holds open for `count` ticks, and has stopped then. -/
def OpensFor (coe : Int) (relay : LcRelay) (count : Nat) : Prop :=
  (∀ fewer < count, (relay.ticks coe fewer).relayState = .holdOpen) ∧
    (relay.ticks coe count).relayState = .stop

theorem ticks_relayState (coe : Int) (count : Nat) (relay : LcRelay) :
    (relay.ticks coe count).relayState = relay.relayState ∨
      (relay.ticks coe count).relayState = .stop := by
  induction count generalizing relay with
  | zero => exact .inl rfl
  | succ count ih =>
      rcases relayTick_relayState coe relay with same | stopped
      · rcases ih (relay.relayTick coe).1 with still | later
        · exact .inl (still.trans same)
        · exact .inr later
      · exact .inr (ticks_of_stop coe count stopped)

theorem opensFor_ahead (coe : Int) (count : Nat) {relay : LcRelay} (bounded : Bounded relay)
    (opening : relay.relayState = .holdOpen) (target : relay.ahead = count + 1) :
    relay.OpensFor coe (count + 1) := by
  obtain ⟨⟨stopped, -⟩, before⟩ := ticks_ahead coe count bounded target
  refine ⟨fun fewer bound => ?_, stopped⟩
  have moving := before fewer (by omega)
  exact ((ticks_relayState coe fewer relay).resolve_right moving).trans opening

theorem OpensFor.unique {coe : Int} {relay : LcRelay} {first second : Nat}
    (opens : relay.OpensFor coe first) (again : relay.OpensFor coe second) : first = second := by
  rcases Nat.lt_trichotomy first second with less | same | more
  · have held := again.1 first less
    simp [opens.2] at held
  · exact same
  · have held := opens.1 second more
    simp [again.2] at held

end LcRelay

namespace Tastek

open LcRelay

/-- `get_position_coe`; a division by zero ends the program. -/
def getPositionCoe (fullSpendSec : Int) : Option Int :=
  if fullSpendSec = 0 then none else some ((100 : Int).tdiv fullSpendSec)

def setLcOpen (fullSpendSec : Int) (relay : LcRelay) (threshold : Int) : Option LcRelay :=
  (getPositionCoe fullSpendSec).bind fun coe => LcRelay.step coe relay (.setLcOpen threshold)

structure TravelsInTime (fullSpendSec : Int) : Prop where
  divides : ∀ relay threshold, Admitted (.setLcOpen threshold) →
    (setLcOpen fullSpendSec relay threshold).isSome
  within : ∀ relay threshold next, Admitted (.setLcOpen threshold) →
    setLcOpen fullSpendSec relay threshold = some next →
      0 ≤ next.expectPosition ∧ next.expectPosition ≤ fullSpendSec
  full : ∀ relay next coe, relay.stateStayPosition = 0 →
    getPositionCoe fullSpendSec = some coe → setLcOpen fullSpendSec relay 100 = some next →
      ∃ count : Nat, (count : Int) = fullSpendSec ∧ next.OpensFor coe count
  ordered : ∀ relay smaller larger next other, Admitted (.setLcOpen smaller) →
    Admitted (.setLcOpen larger) → smaller ≤ larger →
    setLcOpen fullSpendSec relay smaller = some next →
    setLcOpen fullSpendSec relay larger = some other →
      next.expectPosition ≤ other.expectPosition

theorem setLcOpen_eq_some {fullSpendSec threshold : Int} {relay next : LcRelay}
    (admitted : Admitted (.setLcOpen threshold)) :
    setLcOpen fullSpendSec relay threshold = some next ↔
      fullSpendSec ≠ 0 ∧ (100 : Int).tdiv fullSpendSec ≠ 0 ∧
        (relay.executeToThreshold ((100 : Int).tdiv fullSpendSec) threshold).1 = next := by
  obtain ⟨low, high⟩ := admitted
  have fits : InInt32 threshold := ⟨by omega, by omega⟩
  simp only [setLcOpen, getPositionCoe, LcRelay.step, relayStep, fits, true_and]
  by_cases zero : fullSpendSec = 0
  · simp [zero]
  · by_cases none : (100 : Int).tdiv fullSpendSec = 0
    · simp [zero, none]
    · simp [zero, none]

theorem expectPosition_of_setLcOpen {fullSpendSec threshold : Int} {relay next : LcRelay}
    (admitted : Admitted (.setLcOpen threshold))
    (taken : setLcOpen fullSpendSec relay threshold = some next) :
    next.expectPosition = threshold.tdiv ((100 : Int).tdiv fullSpendSec) := by
  obtain ⟨-, -, rfl⟩ := (setLcOpen_eq_some admitted).mp taken
  rw [executeToThreshold_fst]

/-- From a closed chute, the commanded position is the time that it opens. -/
theorem opensFor_of_setLcOpen {fullSpendSec threshold : Int} {relay next : LcRelay}
    (admitted : Admitted (.setLcOpen threshold)) (closed : relay.stateStayPosition = 0)
    (taken : setLcOpen fullSpendSec relay threshold = some next)
    (opens : 0 < next.expectPosition) (coe : Int) :
    next.OpensFor coe next.expectPosition.toNat := by
  have target := expectPosition_of_setLcOpen admitted taken
  obtain ⟨-, divides, rfl⟩ := (setLcOpen_eq_some admitted).mp taken
  obtain ⟨low, high⟩ := admitted
  have size := Int.natAbs_tdiv_le_natAbs threshold ((100 : Int).tdiv fullSpendSec)
  have near : InInt32 (threshold.tdiv ((100 : Int).tdiv fullSpendSec)) := ⟨by omega, by omega⟩
  rw [target] at opens ⊢
  rw [executeToThreshold_fst, closed, Int.sub_zero, toInt32_of_inInt32 near, if_pos opens]
  obtain ⟨count, same⟩ : ∃ count : Nat,
      threshold.tdiv ((100 : Int).tdiv fullSpendSec) = count + 1 :=
    ⟨(threshold.tdiv ((100 : Int).tdiv fullSpendSec)).toNat - 1, by omega⟩
  rw [same]
  refine opensFor_ahead coe count ⟨?_, same ▸ near⟩ rfl ?_
  · exact show InInt32 0 by decide
  · simp only [ahead, Int.sub_zero]

theorem travelsInTime_of_back {fullSpendSec : Int} (positive : 0 < fullSpendSec)
    (divides : 0 < 100 / fullSpendSec) (back : 100 / (100 / fullSpendSec) = fullSpendSec) :
    TravelsInTime fullSpendSec := by
  have coe : (100 : Int).tdiv fullSpendSec = 100 / fullSpendSec :=
    Int.tdiv_eq_ediv_of_nonneg (by decide)
  have target {relay next : LcRelay} {threshold : Int} (admitted : Admitted (.setLcOpen threshold))
      (taken : setLcOpen fullSpendSec relay threshold = some next) :
      next.expectPosition = threshold / (100 / fullSpendSec) := by
    rw [expectPosition_of_setLcOpen admitted taken, coe, Int.tdiv_eq_ediv_of_nonneg admitted.1]
  refine ⟨fun relay threshold admitted => ?_, fun relay threshold next admitted taken => ?_,
    fun relay next other closed _ taken => ?_,
    fun relay smaller larger next other low high le first second => ?_⟩
  · exact Option.isSome_iff_exists.mpr ⟨_, (setLcOpen_eq_some admitted).mpr
      ⟨by omega, by omega, rfl⟩⟩
  · rw [target admitted taken]
    have most := Int.ediv_le_ediv divides admitted.2
    rw [back] at most
    exact ⟨Int.ediv_nonneg admitted.1 (Int.le_of_lt divides), most⟩
  · have full : Admitted (.setLcOpen 100) := by decide
    have there : next.expectPosition = fullSpendSec := (target full taken).trans back
    refine ⟨fullSpendSec.toNat, by omega, ?_⟩
    rw [← there]
    exact opensFor_of_setLcOpen full closed taken (by omega) other
  · rw [target low first, target high second]
    exact Int.ediv_le_ediv divides le

theorem back_of_travelsInTime {fullSpendSec : Int} (travels : TravelsInTime fullSpendSec) :
    0 < fullSpendSec ∧ 0 < 100 / fullSpendSec ∧
      100 / (100 / fullSpendSec) = fullSpendSec := by
  have full : Admitted (.setLcOpen 100) := by decide
  have none : Admitted (.setLcOpen 0) := by decide
  obtain ⟨next, taken⟩ := Option.isSome_iff_exists.mp (travels.divides .start 100 full)
  obtain ⟨shut, closing⟩ := Option.isSome_iff_exists.mp (travels.divides .start 0 none)
  obtain ⟨nonzero, divides, -⟩ := (setLcOpen_eq_some full).mp taken
  have bounds := travels.within .start 0 shut none closing
  have positive : 0 < fullSpendSec := by omega
  have coe : (100 : Int).tdiv fullSpendSec = 100 / fullSpendSec :=
    Int.tdiv_eq_ediv_of_nonneg (by decide)
  have part : 0 < 100 / fullSpendSec := by
    have least : 0 ≤ 100 / fullSpendSec := Int.ediv_nonneg (by decide) (Int.le_of_lt positive)
    omega
  have target : next.expectPosition = 100 / (100 / fullSpendSec) := by
    rw [expectPosition_of_setLcOpen full taken, coe, Int.tdiv_eq_ediv_of_nonneg (by decide)]
  have opens : 0 < next.expectPosition := by
    rw [target]
    have small : 100 / fullSpendSec ≤ 100 := Int.ediv_le_self fullSpendSec (by decide)
    exact (Int.le_ediv_iff_mul_le part).mpr (by omega)
  obtain ⟨count, same, opensFor⟩ := travels.full .start next _ rfl (if_neg nonzero) taken
  have long := opensFor_of_setLcOpen full rfl taken opens ((100 : Int).tdiv fullSpendSec)
  have counts := opensFor.unique long
  exact ⟨positive, part, by omega⟩

theorem div_div_div_self {total divisor : Nat} (positive : 0 < divisor)
    (small : divisor ≤ total) : total / (total / (total / divisor)) = total / divisor := by
  have part : 0 < total / divisor := Nat.div_pos small positive
  have larger : divisor ≤ total / (total / divisor) :=
    (Nat.le_div_iff_mul_le part).mpr (Nat.mul_div_le total divisor)
  have other : 0 < total / (total / divisor) := Nat.lt_of_lt_of_le positive larger
  refine Nat.le_antisymm (Nat.div_le_div_left larger positive) ?_
  exact (Nat.le_div_iff_mul_le other).mpr (Nat.mul_div_le total (total / divisor))

/-- The commands of a driver fit its spend setting exactly where the setting is what 100
divided by a whole number gives. -/
theorem travelsInTime_iff (fullSpendSec : Int) : TravelsInTime fullSpendSec ↔
    ∃ divisor, 1 ≤ divisor ∧ divisor ≤ 100 ∧ fullSpendSec = 100 / divisor := by
  constructor
  · intro travels
    obtain ⟨-, part, back⟩ := back_of_travelsInTime travels
    exact ⟨100 / fullSpendSec, part, Int.ediv_le_self fullSpendSec (by decide), back.symm⟩
  · rintro ⟨divisor, positive, small, rfl⟩
    obtain ⟨divisor, rfl⟩ := Int.eq_ofNat_of_zero_le (show 0 ≤ divisor by omega)
    have least : 1 ≤ divisor := by omega
    have part : 0 < 100 / divisor := Nat.div_pos (by omega) least
    have back := div_div_div_self least (show divisor ≤ 100 by omega)
    have room : 0 < 100 / (100 / divisor) := Nat.div_pos (Nat.div_le_self 100 divisor) part
    exact travelsInTime_of_back (by exact_mod_cast part) (by exact_mod_cast room)
      (by exact_mod_cast back)

/-- With 120 seconds every command divides by zero, and with 40 the chute opens for 50. -/
theorem travelsInTime_fails :
    setLcOpen 120 .start 0 = none ∧ ¬TravelsInTime 120 ∧
      (setLcOpen 40 .start 100).map LcRelay.expectPosition = some 50 ∧ ¬TravelsInTime 40 := by
  refine ⟨by decide, fun travels => ?_, by decide, fun travels => ?_⟩
  · exact absurd (back_of_travelsInTime travels).2.1 (by decide)
  · exact absurd (back_of_travelsInTime travels).2.2 (by decide)

end Tastek

end AutoDrop
