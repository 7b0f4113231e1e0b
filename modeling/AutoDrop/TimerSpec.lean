import AutoDrop.RelayCore

/-!
What the requests for a timer give to `timerfd_settime`. The parameters that the source
calls `_micro_sec` are milliseconds. All arithmetic is in `int`, and the kernel refuses a
`tv_nsec` of a second or more.
-/

namespace AutoDrop

structure Timespec where
  tvSec : Int
  tvNsec : Int
deriving DecidableEq, Repr

structure Itimerspec where
  itInterval : Timespec
  itValue : Timespec
deriving DecidableEq, Repr

/-- `start_timer` and `start_timer_ms` of Lua, `sleep_wait`, and the timeout of
`yield_by_fd`. -/
inductive TimerRequest
  | startTimer (sec : Int)
  | startTimerMs (msSec : Int)
  | sleepWait (sec microSec : Int)
  | yieldByFd (microSec : Int)
deriving DecidableEq, Repr

/-- A product of two `int`s, which has no value where it overflows. -/
def mulInt (left right : Int) : Option Int :=
  if InInt32 (left * right) then some (left * right) else none

/-- The constructor of `AD_EVENT_SC_TIMER_NODE`. -/
def timerNode (timeout microSec : Int) : Option Itimerspec :=
  (mulInt microSec 1000).bind fun product =>
    (mulInt product 1000).map fun nsec => ⟨⟨timeout, nsec⟩, ⟨timeout, nsec⟩⟩

def startTimerMs (msSec : Int) : Option Itimerspec :=
  timerNode (msSec.tdiv 1000) (msSec.tmod 1000)

namespace TimerRequest

def arm : TimerRequest → Option Itimerspec
  | startTimer sec => (mulInt sec 1000).bind AutoDrop.startTimerMs
  | startTimerMs msSec => AutoDrop.startTimerMs msSec
  | sleepWait sec microSec => timerNode sec microSec
  | yieldByFd microSec => timerNode 0 microSec

def components : TimerRequest → Int × Int
  | startTimer sec => (sec, 0)
  | startTimerMs msSec => (0, msSec)
  | sleepWait sec microSec => (sec, microSec)
  | yieldByFd microSec => (0, microSec)

def Positive (request : TimerRequest) : Prop :=
  let (sec, ms) := request.components
  (0 ≤ sec ∧ InInt32 sec) ∧ (0 ≤ ms ∧ InInt32 ms) ∧ (sec ≠ 0 ∨ ms ≠ 0)

instance (request : TimerRequest) : Decidable request.Positive :=
  inferInstanceAs (Decidable (_ ∧ _ ∧ _))

end TimerRequest

def Timespec.Lasts (time : Timespec) (duration : Int × Int) : Prop :=
  0 ≤ time.tvNsec ∧ time.tvNsec < 10 ^ 9 ∧
    time.tvSec * 10 ^ 9 + time.tvNsec = duration.1 * 10 ^ 9 + duration.2 * 10 ^ 6

namespace TimerRequest

def ArmedRight (request : TimerRequest) : Prop :=
  ∃ spec, request.arm = some spec ∧ spec.itValue.Lasts request.components ∧
    spec.itInterval.Lasts request.components

/-- The one entry that splits off the whole seconds is always right. -/
def Fits : TimerRequest → Prop
  | startTimer sec => sec ≤ 2147483
  | startTimerMs _ => True
  | sleepWait _ microSec => microSec ≤ 999
  | yieldByFd microSec => microSec ≤ 999

instance : DecidablePred Fits
  | startTimer _ | sleepWait _ _ | yieldByFd _ => inferInstanceAs (Decidable (_ ≤ _))
  | startTimerMs _ => inferInstanceAs (Decidable True)

theorem mulInt_eq_some {left right product : Int} :
    mulInt left right = some product ↔ InInt32 (left * right) ∧ left * right = product := by
  simp [mulInt]

theorem timerNode_eq_some {timeout microSec : Int} {spec : Itimerspec} :
    timerNode timeout microSec = some spec ↔
      InInt32 (microSec * 1000) ∧ InInt32 (microSec * 1000 * 1000) ∧
        spec = ⟨⟨timeout, microSec * 1000 * 1000⟩, ⟨timeout, microSec * 1000 * 1000⟩⟩ := by
  simp only [timerNode, Option.bind_eq_some_iff, Option.map_eq_some_iff, mulInt_eq_some]
  constructor
  · rintro ⟨_, ⟨thousand, rfl⟩, _, ⟨million, rfl⟩, rfl⟩
    exact ⟨thousand, million, rfl⟩
  · rintro ⟨thousand, million, rfl⟩
    exact ⟨_, ⟨thousand, rfl⟩, _, ⟨million, rfl⟩, rfl⟩

theorem timerNode_lasts_iff {timeout microSec : Int} (nonneg : 0 ≤ microSec) :
    (∃ spec, timerNode timeout microSec = some spec ∧
      spec.itValue.Lasts (timeout, microSec) ∧ spec.itInterval.Lasts (timeout, microSec)) ↔
      microSec ≤ 999 := by
  constructor
  · rintro ⟨spec, armed, lasts, -⟩
    obtain ⟨-, -, rfl⟩ := timerNode_eq_some.mp armed
    have below := lasts.2.1
    dsimp only at below
    omega
  · intro small
    have lasts : Timespec.Lasts ⟨timeout, microSec * 1000 * 1000⟩ (timeout, microSec) :=
      ⟨by dsimp only; omega, by dsimp only; omega, by dsimp only; omega⟩
    refine ⟨_, timerNode_eq_some.mpr ⟨⟨by omega, by omega⟩, ⟨by omega, by omega⟩, rfl⟩, lasts, lasts⟩

theorem lasts_congr {time : Timespec} {duration other : Int × Int}
    (same : duration.1 * 1000 + duration.2 = other.1 * 1000 + other.2) :
    time.Lasts duration ↔ time.Lasts other := by
  unfold Timespec.Lasts
  constructor
  · rintro ⟨low, high, total⟩
    exact ⟨low, high, by omega⟩
  · rintro ⟨low, high, total⟩
    exact ⟨low, high, by omega⟩

theorem startTimerMs_lasts {msSec : Int} (nonneg : 0 ≤ msSec) :
    ∃ spec, AutoDrop.startTimerMs msSec = some spec ∧ spec.itValue.Lasts (0, msSec) ∧
      spec.itInterval.Lasts (0, msSec) := by
  have split : 0 ≤ msSec % 1000 ∧ msSec % 1000 ≤ 999 := by omega
  obtain ⟨spec, armed, value, interval⟩ :=
    (timerNode_lasts_iff split.1).mpr split.2
  refine ⟨spec, ?_, (lasts_congr ?_).mp value, (lasts_congr ?_).mp interval⟩
  · rw [AutoDrop.startTimerMs, Int.tdiv_eq_ediv_of_nonneg nonneg,
      Int.tmod_eq_emod_of_nonneg nonneg]
    exact armed
  · dsimp only
    omega
  · dsimp only
    omega

theorem startTimer_armedRight_iff {sec : Int} (nonneg : 0 ≤ sec) :
    ArmedRight (.startTimer sec) ↔ sec ≤ 2147483 := by
  constructor
  · rintro ⟨spec, armed, -⟩
    obtain ⟨product, multiplied, -⟩ := Option.bind_eq_some_iff.mp armed
    have fits := (mulInt_eq_some.mp multiplied).1
    unfold InInt32 at fits
    omega
  · intro small
    obtain ⟨spec, armed, value, interval⟩ := startTimerMs_lasts (show 0 ≤ sec * 1000 by omega)
    have multiplied : mulInt sec 1000 = some (sec * 1000) :=
      mulInt_eq_some.mpr ⟨⟨by omega, by omega⟩, rfl⟩
    refine ⟨spec, ?_, (lasts_congr ?_).mp value, (lasts_congr ?_).mp interval⟩
    · rw [arm, multiplied, Option.bind_some, armed]
    · simp only [components]
      omega
    · simp only [components]
      omega

/-- A timer is armed with the duration asked for, exactly within the bounds of its entry. -/
theorem armedRight_iff (request : TimerRequest) (positive : request.Positive) :
    request.ArmedRight ↔ request.Fits := by
  obtain ⟨⟨sec, -⟩, ⟨ms, -⟩, -⟩ := positive
  cases request with
  | startTimer => exact startTimer_armedRight_iff sec
  | startTimerMs => exact iff_of_true (startTimerMs_lasts ms) trivial
  | sleepWait => exact timerNode_lasts_iff ms
  | yieldByFd => exact timerNode_lasts_iff ms

theorem armedRight_iff_halfSecond : ArmedRight (.sleepWait 2 500) :=
  (armedRight_iff (.sleepWait 2 500) (by decide)).mpr (by decide)

/-- A timeout of 1500 ms gives a `tv_nsec` that the kernel refuses, one of 2148 ms and a
timer of 2147484 seconds overflow. -/
theorem armedRight_fails :
    (yieldByFd 1500).arm = some ⟨⟨0, 1500000000⟩, ⟨0, 1500000000⟩⟩ ∧
      (yieldByFd 1500).Positive ∧ ¬(yieldByFd 1500).ArmedRight ∧
      (sleepWait 0 2148).arm = none ∧ (startTimer 2147484).arm = none := by
  refine ⟨by decide, by decide, ?_, by decide, by decide⟩
  rintro ⟨spec, armed, value, -⟩
  obtain rfl : (⟨⟨0, 1500000000⟩, ⟨0, 1500000000⟩⟩ : Itimerspec) = spec := Option.some.inj armed
  exact absurd value.2.1 (by decide)

end TimerRequest

end AutoDrop
