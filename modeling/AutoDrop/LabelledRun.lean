import Mathlib.Data.List.Basic
import Mathlib.Data.Option.Basic

/-!
Finite runs of a labelled partial step function. A step answers `none` to a label that is
not enabled. `Meets` says that every step of a run is taken where a condition holds,
`Always` that every state it visits, the first and the last included, has a property; the
rules below turn facts about one step into facts about whole runs.
-/

namespace LabelledRun

variable {State Label : Type*}

def exec (step : State → Label → Option State) : State → List Label → Option State
  | state, [] => some state
  | state, label :: rest => (step state label).bind fun next => exec step next rest

def Reachable (step : State → Label → Option State) (start state : State) : Prop :=
  ∃ labels, exec step start labels = some state

def Meets (step : State → Label → Option State) (condition : State → Label → Prop) :
    State → List Label → Prop
  | _, [] => True
  | state, label :: rest =>
      condition state label ∧ ∀ next, step state label = some next → Meets step condition next rest

def Always (step : State → Label → Option State) (property : State → Prop) :
    State → List Label → Prop
  | state, [] => property state
  | state, label :: rest =>
      property state ∧ ∀ next, step state label = some next → Always step property next rest

theorem Meets.cons {step : State → Label → Option State} {condition : State → Label → Prop}
    {state next : State} {label : Label} {labels : List Label}
    (taken : step state label = some next) (met : condition state label)
    (rest : Meets step condition next labels) : Meets step condition state (label :: labels) :=
  ⟨met, fun _ otherTaken => Option.some.inj (taken.symm.trans otherTaken) ▸ rest⟩

instance Meets.decidable (step : State → Label → Option State)
    (condition : State → Label → Prop)
    [∀ state label, Decidable (condition state label)] :
    ∀ (state : State) (labels : List Label), Decidable (Meets step condition state labels)
  | _, [] => .isTrue trivial
  | state, label :: rest =>
      match taken : step state label with
      | none => decidable_of_iff (condition state label) (by simp [Meets, taken])
      | some next =>
          have := Meets.decidable step condition next rest
          decidable_of_iff (condition state label ∧ Meets step condition next rest)
            (by simp [Meets, taken])

variable {step : State → Label → Option State}

@[simp] theorem exec_nil (state : State) : exec step state [] = some state := rfl

theorem exec_cons_eq_some {state final : State} {label : Label} {rest : List Label} :
    exec step state (label :: rest) = some final ↔
      ∃ next, step state label = some next ∧ exec step next rest = some final := by
  simp [exec, Option.bind_eq_some_iff]

theorem exec_append (state : State) (before after : List Label) :
    exec step state (before ++ after) =
      (exec step state before).bind fun middle => exec step middle after := by
  induction before generalizing state with
  | nil => rfl
  | cons label rest ih =>
      simp only [List.cons_append, exec]
      cases step state label with
      | none => rfl
      | some next => exact ih next

theorem exec_cons_of_step {state next : State} {label : Label} (rest : List Label)
    (taken : step state label = some next) :
    exec step state (label :: rest) = exec step next rest := by
  rw [exec, taken, Option.bind_some]

theorem exec_append_of_exec {state middle : State} {before : List Label} (after : List Label)
    (run : exec step state before = some middle) :
    exec step state (before ++ after) = exec step middle after := by
  rw [exec_append, run, Option.bind_some]

theorem Reachable.refl (state : State) : Reachable step state state :=
  ⟨[], rfl⟩

theorem Reachable.trans {first second third : State} (left : Reachable step first second)
    (right : Reachable step second third) : Reachable step first third := by
  obtain ⟨before, reached⟩ := left
  obtain ⟨after, onward⟩ := right
  exact ⟨before ++ after, by rw [exec_append, reached, Option.bind_some, onward]⟩

theorem Reachable.tail {first second third : State} {label : Label}
    (reached : Reachable step first second) (taken : step second label = some third) :
    Reachable step first third :=
  reached.trans ⟨[label], exec_cons_eq_some.mpr ⟨third, taken, rfl⟩⟩

/-- No other label can be taken on the way. -/
def Forced (step : State → Label → Option State) : State → List Label → State → Prop
  | state, [], final => state = final
  | state, label :: rest, final =>
      (∀ other, step state other ≠ none → other = label) ∧
        ∃ next, step state label = some next ∧ Forced step next rest final

theorem Forced.cons {state next final : State} {label : Label} {rest : List Label}
    (only : ∀ other, step state other ≠ none → other = label)
    (taken : step state label = some next) (forced : Forced step next rest final) :
    Forced step state (label :: rest) final :=
  ⟨only, next, taken, forced⟩

theorem Forced.runs {state final : State} {labels : List Label}
    (forced : Forced step state labels final) : exec step state labels = some final := by
  induction labels generalizing state with
  | nil => exact congrArg some forced
  | cons label rest ih =>
      obtain ⟨-, next, taken, onward⟩ := forced
      exact exec_cons_eq_some.mpr ⟨next, taken, ih onward⟩

/-- A run from there follows the forced labels as far as both go. -/
theorem Forced.comparable {state final later : State} {labels others : List Label}
    (forced : Forced step state labels final) (run : exec step state others = some later) :
    others <+: labels ∨ labels <+: others := by
  induction labels generalizing state others with
  | nil => exact .inr List.nil_prefix
  | cons label rest ih =>
      cases others with
      | nil => exact .inl List.nil_prefix
      | cons other remaining =>
          obtain ⟨only, next, taken, onward⟩ := forced
          obtain ⟨reached, moved, follows⟩ := exec_cons_eq_some.mp run
          obtain rfl := only other (by simp [moved])
          obtain rfl : next = reached := Option.some.inj (taken.symm.trans moved)
          rcases ih onward follows with shorter | longer
          · exact .inl (List.prefix_cons_inj other |>.mpr shorter)
          · exact .inr (List.prefix_cons_inj other |>.mpr longer)

theorem Always.head {property : State → Prop} {state : State} {labels : List Label}
    (always : Always step property state labels) : property state := by
  cases labels with
  | nil => exact always
  | cons label rest => exact always.1

theorem Always.last {property : State → Prop} {state final : State} {labels : List Label}
    (always : Always step property state labels) (run : exec step state labels = some final) :
    property final := by
  induction labels generalizing state with
  | nil => exact Option.some.inj run ▸ always
  | cons label rest ih =>
      obtain ⟨next, taken, remaining⟩ := exec_cons_eq_some.mp run
      exact ih (always.2 next taken) remaining

theorem Always.mono {property weaker : State → Prop}
    (implies : ∀ state, property state → weaker state) {state : State} {labels : List Label}
    (always : Always step property state labels) : Always step weaker state labels := by
  induction labels generalizing state with
  | nil => exact implies state always
  | cons label rest ih =>
      exact ⟨implies state always.1, fun next taken => ih (always.2 next taken)⟩

/-- The invariant rule for runs whose every step meets a condition. -/
theorem always_of_meets {invariant : State → Prop} {condition : State → Label → Prop}
    (preserved : ∀ state label next, invariant state → condition state label →
      step state label = some next → invariant next)
    {state : State} {labels : List Label}
    (initial : invariant state) (meets : Meets step condition state labels) :
    Always step invariant state labels := by
  induction labels generalizing state with
  | nil => exact initial
  | cons label rest ih =>
      exact ⟨initial, fun next taken =>
        ih (preserved state label next initial meets.1 taken) (meets.2 next taken)⟩

/-- What an invariant and the condition say of the steps of a run. -/
theorem meets_of_meets {invariant : State → Prop} {condition consequence : State → Label → Prop}
    (preserved : ∀ state label next, invariant state → condition state label →
      step state label = some next → invariant next)
    (implies : ∀ state label, invariant state → condition state label → consequence state label)
    {state : State} {labels : List Label}
    (initial : invariant state) (meets : Meets step condition state labels) :
    Meets step consequence state labels := by
  induction labels generalizing state with
  | nil => trivial
  | cons label rest ih =>
      exact ⟨implies state label initial meets.1, fun next taken =>
        ih (preserved state label next initial meets.1 taken) (meets.2 next taken)⟩

/-- The invariant rule for runs over some of the labels. -/
theorem invariant_of_exec {invariant : State → Prop} {admitted : Label → Prop}
    (preserved : ∀ state label next, invariant state → admitted label →
      step state label = some next → invariant next)
    {start state : State} {labels : List Label} (initial : invariant start)
    (all : ∀ label ∈ labels, admitted label) (run : exec step start labels = some state) :
    invariant state := by
  induction labels generalizing start with
  | nil =>
      simp only [exec_nil, Option.some.injEq] at run
      exact run ▸ initial
  | cons label rest ih =>
      obtain ⟨next, taken, remaining⟩ := exec_cons_eq_some.mp run
      have first := preserved start label next initial (all label List.mem_cons_self) taken
      exact ih first (fun other member => all other (List.mem_cons_of_mem _ member)) remaining

theorem invariant_of_reachable {invariant : State → Prop} {start : State}
    (initial : invariant start)
    (preserved : ∀ state label next, invariant state → step state label = some next →
      invariant next)
    {state : State} (reached : Reachable step start state) : invariant state := by
  obtain ⟨labels, run⟩ := reached
  exact invariant_of_exec (fun state label next holds _ taken =>
    preserved state label next holds taken) initial (fun _ _ => trivial) run

/-- An invariant whose steps rest on what holds of every state on the way. -/
theorem invariant_along {invariant : State → Prop} {start : State} (initial : invariant start)
    (preserved : ∀ state label next, Reachable step start state → invariant state →
      step state label = some next → invariant next)
    {state : State} (reached : Reachable step start state) : invariant state := by
  have kept : ∀ state label next, Reachable step start state ∧ invariant state →
      step state label = some next → Reachable step start next ∧ invariant next :=
    fun state label next holds taken =>
      ⟨holds.1.tail taken, preserved state label next holds.1 holds.2 taken⟩
  have both : Reachable step start state ∧ invariant state :=
    invariant_of_reachable ⟨Reachable.refl start, initial⟩ kept reached
  exact both.2

/-- A run stays where a property holds, or passes the step at which it is left. -/
theorem exec_until {holds : State → Prop} {leaves : State → State → Prop}
    (stays : ∀ state label next, holds state → step state label = some next →
      holds next ∨ leaves state next)
    {state final : State} {labels : List Label} (initial : holds state)
    (run : exec step state labels = some final) :
    holds final ∨ ∃ before label rest middle next, labels = before ++ label :: rest ∧
      exec step state before = some middle ∧ holds middle ∧ step middle label = some next ∧
        leaves middle next ∧ exec step next rest = some final := by
  induction labels generalizing state with
  | nil => exact .inl (Option.some.inj run ▸ initial)
  | cons label rest ih =>
      obtain ⟨next, taken, onward⟩ := exec_cons_eq_some.mp run
      rcases stays state label next initial taken with stayed | left
      · rcases ih stayed onward with holds | ⟨before, last, after, middle, out, rfl, reached, here⟩
        · exact .inl holds
        · exact .inr ⟨label :: before, last, after, middle, out, rfl,
            exec_cons_eq_some.mpr ⟨next, taken, reached⟩, here⟩
      · exact .inr ⟨[], label, rest, state, next, rfl, rfl, initial, taken, left, onward⟩

/-- Where a step that misses the condition dooms the run, which then leaves the property
before it settles, a run that keeps the property and settles meets the condition. -/
theorem meets_of_always {property invariant doomed : State → Prop}
    {condition : State → Label → Prop}
    (preserved : ∀ state label next, invariant state → condition state label →
      step state label = some next → invariant next)
    (misses : ∀ state label next, invariant state → ¬condition state label →
      step state label = some next → property next → doomed next)
    (stays : ∀ state label next, doomed state → step state label = some next →
      property next → doomed next)
    {state final : State} {labels : List Label} (initial : invariant state)
    (run : exec step state labels = some final) (settled : ¬doomed final)
    (always : Always step property state labels) : Meets step condition state labels := by
  have doom : ∀ labels state, doomed state → exec step state labels = some final →
      Always step property state labels → doomed final := by
    intro labels
    induction labels with
    | nil =>
        intro state here run _
        exact Option.some.inj run ▸ here
    | cons label rest ih =>
        intro state here run always
        obtain ⟨next, taken, remaining⟩ := exec_cons_eq_some.mp run
        have later := always.2 next taken
        exact ih next (stays state label next here taken later.head) remaining later
  induction labels generalizing state with
  | nil => trivial
  | cons label rest ih =>
      obtain ⟨next, taken, remaining⟩ := exec_cons_eq_some.mp run
      have later := always.2 next taken
      have met : condition state label := by
        by_contra missed
        have lost := misses state label next initial missed taken later.head
        exact settled (doom rest next lost remaining later)
      exact Meets.cons taken met
        (ih (preserved state label next initial met taken) remaining later)

/-- Where a step from a good state stays good exactly if it meets the condition, a run
visits good states only exactly if all its steps meet the condition. -/
theorem always_iff_meets {property invariant : State → Prop} {condition : State → Label → Prop}
    (sound : ∀ state, invariant state → property state)
    (preserved : ∀ state label next, invariant state → condition state label →
      step state label = some next → invariant next)
    (necessary : ∀ state label next, invariant state → step state label = some next →
      property next → condition state label)
    {state final : State} {labels : List Label}
    (initial : invariant state) (run : exec step state labels = some final) :
    Always step property state labels ↔ Meets step condition state labels := by
  constructor
  · have settled : ¬(fun _ : State => False) final := fun lost => lost
    apply @meets_of_always _ _ step property invariant (fun _ => False) condition preserved ?_ ?_
      _ _ _ initial run settled
    · intro state label next holds missed taken good
      exact missed (necessary state label next holds taken good)
    · intro _ _ _ lost
      exact lost.elim
  · intro meets
    exact (always_of_meets preserved initial meets).mono sound

end LabelledRun
