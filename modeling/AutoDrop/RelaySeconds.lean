import AutoDrop.RelayRest

/-!
The seconds that the relay timer counts. The kernel adds an expiration to the timerfd every
second, the loop may dispatch the timer much later, and one read then reports all that have
come together. `intervals` keeps what happened each time the relay was held open or closed,
the latest first.
-/

namespace AutoDrop

structure HeldInterval where
  relayState : LcRelayState
  entered : Int
  position : Int
  reported : Nat
deriving DecidableEq, Repr

structure RelayTimer where
  relay : LcRelay
  expirations : Nat
  intervals : List HeldInterval

inductive RelayTimerLabel
  | second
  | handleEvent
  | setLcOpen (threshold : Int)
deriving DecidableEq, Repr

namespace HeldInterval

/-- The change of the position in the direction that is held. -/
def change (interval : HeldInterval) : Int :=
  match interval.relayState with
  | .holdOpen => interval.position - interval.entered
  | .holdClose => interval.entered - interval.position
  | .stop => 0

def moveTo (interval : HeldInterval) (position : Int) (expirations : Nat) : HeldInterval :=
  { interval with position, reported := interval.reported + expirations }

end HeldInterval

namespace RelayTimer

def start : RelayTimer :=
  ⟨.start, 0, []⟩

/-- A read that reports `expirations` belongs to the interval that goes on. -/
def counted (position : Int) (expirations : Nat) : List HeldInterval → List HeldInterval
  | interval :: older => interval.moveTo position expirations :: older
  | [] => []

/-- `AD_EVENT_SC_TIMER_NODE::handleEvent`: a read without an expiration fails, and any other
calls the callback once. -/
def handleEvent (coe : Int) (timer : RelayTimer) : RelayTimer :=
  if timer.expirations = 0 then timer
  else
    let ticked := (timer.relay.relayTick coe).1
    { relay := ticked
      expirations := 0
      intervals :=
        if timer.relay.relayState = .stop then timer.intervals
        else counted ticked.stateStayPosition timer.expirations timer.intervals }

def setLcOpen (timer : RelayTimer) (relay : LcRelay) : RelayTimer :=
  { timer with
    relay
    intervals :=
      if relay.relayState = timer.relay.relayState then timer.intervals
      else ⟨relay.relayState, relay.stateStayPosition, relay.stateStayPosition, 0⟩ ::
        timer.intervals }

def step (coe : Int) (timer : RelayTimer) : RelayTimerLabel → Option RelayTimer
  | .second => some { timer with expirations := timer.expirations + 1 }
  | .handleEvent => some (timer.handleEvent coe)
  | .setLcOpen threshold => (LcRelay.step coe timer.relay (.setLcOpen threshold)).map timer.setLcOpen

open LabelledRun

def NoneLost (timer : RelayTimer) : Prop :=
  ∀ interval ∈ timer.intervals, interval.change = interval.reported

instance (timer : RelayTimer) : Decidable timer.NoneLost :=
  inferInstanceAs (Decidable (∀ interval ∈ timer.intervals, _))

/-- A read that finds the relay held reports one expiration, and the position does not run
over the end of `int`. -/
def ReadsOne (timer : RelayTimer) : RelayTimerLabel → Prop
  | .handleEvent => timer.relay.relayState ≠ .stop → timer.expirations ≠ 0 →
      timer.expirations = 1 ∧ ¬timer.relay.AtEdge
  | _ => True

instance : ∀ timer label, Decidable (ReadsOne timer label)
  | _, .handleEvent => inferInstanceAs (Decidable (_ → _ → _ ∧ _))
  | _, .second => inferInstanceAs (Decidable True)
  | _, .setLcOpen _ => inferInstanceAs (Decidable True)

structure Counts (timer : RelayTimer) : Prop where
  stay : InInt32 timer.relay.stateStayPosition
  noneLost : timer.NoneLost
  held : timer.relay.relayState ≠ .stop → ∃ interval older,
    timer.intervals = interval :: older ∧ interval.relayState = timer.relay.relayState ∧
      interval.position = timer.relay.stateStayPosition

theorem start_counts : Counts start := by
  refine ⟨by decide, by simp [NoneLost, start], fun held => ?_⟩
  exact absurd rfl held

/-- One callback moves the chute by one position, and over the end of `int` back by all of
them. -/
theorem change_moveTo {relay : LcRelay} {interval : HeldInterval} {expirations : Nat}
    (stay : InInt32 relay.stateStayPosition) (held : relay.relayState ≠ .stop)
    (way : interval.relayState = relay.relayState)
    (here : interval.position = relay.stateStayPosition) :
    (interval.moveTo relay.move.stateStayPosition expirations).change =
      interval.change + if relay.AtEdge then 1 - 2 ^ 32 else 1 := by
  unfold InInt32 at stay
  cases state : relay.relayState with
  | stop => exact absurd state held
  | holdOpen =>
      simp only [HeldInterval.change, HeldInterval.moveTo, way, state, LcRelay.move,
        LcRelay.AtEdge, here, toInt32, true_and, reduceCtorEq, false_and, or_false]
      split
      · omega
      · omega
  | holdClose =>
      simp only [HeldInterval.change, HeldInterval.moveTo, way, state, LcRelay.move,
        LcRelay.AtEdge, here, toInt32, true_and, reduceCtorEq, false_and, false_or]
      split
      · omega
      · omega

theorem handleEvent_held {coe : Int} {timer : RelayTimer} {interval : HeldInterval}
    {older : List HeldInterval} (some : timer.expirations ≠ 0)
    (held : timer.relay.relayState ≠ .stop) (intervals : timer.intervals = interval :: older) :
    (timer.handleEvent coe).intervals =
      interval.moveTo timer.relay.move.stateStayPosition timer.expirations :: older := by
  simp only [handleEvent, some, held, intervals, counted, LcRelay.relayTick_position, ↓reduceIte]

theorem handleEvent_noneLost_iff {coe : Int} {timer : RelayTimer} (counts : Counts timer) :
    (timer.handleEvent coe).NoneLost ↔ ReadsOne timer .handleEvent := by
  by_cases some : timer.expirations = 0
  · have same : timer.handleEvent coe = timer := if_pos some
    rw [same]
    exact iff_of_true counts.noneLost (fun _ other => absurd some other)
  by_cases held : timer.relay.relayState = .stop
  · have same : (timer.handleEvent coe).intervals = timer.intervals := by
      simp [handleEvent, some, held]
    refine iff_of_true (fun interval member => ?_) (fun other => absurd held other)
    exact counts.noneLost interval (same ▸ member)
  · obtain ⟨interval, older, intervals, way, here⟩ := counts.held held
    have before : interval.change = interval.reported :=
      counts.noneLost interval (by simp [intervals])
    have change : (interval.moveTo timer.relay.move.stateStayPosition timer.expirations).change =
        interval.change + if timer.relay.AtEdge then 1 - 2 ^ 32 else 1 :=
      change_moveTo counts.stay held way here
    have reported : (interval.moveTo timer.relay.move.stateStayPosition
        timer.expirations).reported = interval.reported + timer.expirations := rfl
    have olderKept : ∀ other ∈ older, other.change = other.reported := fun other member =>
      counts.noneLost other (by simp [intervals, member])
    simp only [NoneLost, handleEvent_held some held intervals, List.forall_mem_cons, ReadsOne,
      ne_eq, held, some, not_false_eq_true, forall_const]
    rw [change, reported]
    constructor
    · rintro ⟨exact, -⟩
      split at exact
      · omega
      · exact ⟨by omega, by assumption⟩
    · rintro ⟨one, inside⟩
      rw [if_neg inside]
      exact ⟨by omega, olderKept⟩

theorem inInt32_move {relay : LcRelay} (stay : InInt32 relay.stateStayPosition) :
    InInt32 relay.move.stateStayPosition := by
  unfold LcRelay.move
  split
  · exact LcRelay.toInt32_inInt32 _
  · exact LcRelay.toInt32_inInt32 _
  · exact stay

theorem handleEvent_counts {coe : Int} {timer : RelayTimer} (counts : Counts timer)
    (noneLost : (timer.handleEvent coe).NoneLost) : Counts (timer.handleEvent coe) := by
  by_cases some : timer.expirations = 0
  · have same : timer.handleEvent coe = timer := if_pos some
    rw [same]
    exact counts
  have relay : (timer.handleEvent coe).relay = (timer.relay.relayTick coe).1 := by
    simp [handleEvent, some]
  refine ⟨?_, noneLost, fun held => ?_⟩
  · rw [relay, LcRelay.relayTick_position]
    exact inInt32_move counts.stay
  · rw [relay] at held ⊢
    have before : timer.relay.relayState ≠ .stop := fun rest =>
      held (LcRelay.relayTick_of_stop coe rest)
    obtain ⟨interval, older, intervals, way, -⟩ := counts.held before
    refine ⟨_, older, handleEvent_held some before intervals, ?_, ?_⟩
    · exact way.trans ((LcRelay.relayTick_relayState coe timer.relay).resolve_right held).symm
    · exact (LcRelay.relayTick_position coe timer.relay).symm

theorem setLcOpen_counts {timer : RelayTimer} {relay : LcRelay} (counts : Counts timer)
    (position : relay.stateStayPosition = timer.relay.stateStayPosition) :
    Counts (timer.setLcOpen relay) := by
  by_cases same : relay.relayState = timer.relay.relayState
  · have intervals : (timer.setLcOpen relay).intervals = timer.intervals := if_pos same
    refine ⟨position ▸ counts.stay, ?_, fun held => ?_⟩
    · rw [NoneLost, intervals]
      exact counts.noneLost
    · rw [intervals]
      obtain ⟨interval, older, entries, way, here⟩ := counts.held (same ▸ held)
      exact ⟨interval, older, entries, way.trans same.symm, here.trans position.symm⟩
  · have intervals : (timer.setLcOpen relay).intervals =
        ⟨relay.relayState, relay.stateStayPosition, relay.stateStayPosition, 0⟩ ::
          timer.intervals := if_neg same
    refine ⟨position ▸ counts.stay, ?_, fun _ => ⟨_, _, intervals, rfl, rfl⟩⟩
    rw [NoneLost, intervals, List.forall_mem_cons]
    refine ⟨?_, counts.noneLost⟩
    cases state : relay.relayState <;> simp [HeldInterval.change]

theorem step_counts {coe : Int} {timer next : RelayTimer} {label : RelayTimerLabel}
    (counts : Counts timer) (reads : ReadsOne timer label)
    (taken : step coe timer label = some next) : Counts next := by
  cases label with
  | second =>
      simp only [step, Option.some.injEq] at taken
      subst next
      exact ⟨counts.stay, counts.noneLost, counts.held⟩
  | handleEvent =>
      simp only [step, Option.some.injEq] at taken
      subst next
      exact handleEvent_counts counts ((handleEvent_noneLost_iff counts).mpr reads)
  | setLcOpen threshold =>
      obtain ⟨relay, commanded, rfl⟩ := Option.map_eq_some_iff.mp taken
      refine setLcOpen_counts counts ?_
      obtain ⟨-, rfl⟩ := LcRelay.step_cases commanded
      rw [LcRelay.executeToThreshold_fst]

theorem readsOne_of_step {coe : Int} {timer next : RelayTimer} {label : RelayTimerLabel}
    (counts : Counts timer) (taken : step coe timer label = some next)
    (noneLost : next.NoneLost) : ReadsOne timer label := by
  cases label with
  | second | setLcOpen => trivial
  | handleEvent =>
      simp only [step, Option.some.injEq] at taken
      subst next
      exact (handleEvent_noneLost_iff counts).mp noneLost

/-- The position follows the seconds through a run exactly if the loop is never later than a
second while the relay is held. -/
theorem always_noneLost_iff (coe : Int) (labels : List RelayTimerLabel) (final : RelayTimer)
    (run : exec (step coe) start labels = some final) :
    Always (step coe) NoneLost start labels ↔ Meets (step coe) ReadsOne start labels :=
  always_iff_meets (fun _ counts => counts.noneLost)
    (fun _ _ _ counts reads taken => step_counts counts reads taken)
    (fun _ _ _ counts taken noneLost => readsOne_of_step counts taken noneLost)
    start_counts run

theorem always_noneLost_punctual :
    Always (step 20) NoneLost start
      [.second, .handleEvent, .setLcOpen 40, .second, .handleEvent, .second, .handleEvent] := by
  refine (always_noneLost_iff 20 _ _ rfl).mpr ?_
  decide

/-- The loop is blocked for three seconds while the chute opens. -/
theorem noneLost_fails :
    ∃ timer, exec (step 20) start [.setLcOpen 100, .second, .second, .second, .handleEvent] =
        some timer ∧
      timer.intervals = [⟨.holdOpen, 0, 1, 3⟩] ∧ ¬timer.NoneLost :=
  ⟨_, rfl, rfl, by decide⟩

end RelayTimer

end AutoDrop
