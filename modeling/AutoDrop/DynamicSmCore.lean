import AutoDrop.LabelledRun
import Mathlib.Data.List.Basic

/-!
The state machine of `DYNAMIC_SM`. A state is created from the configuration each time it
is needed, so two visits to one state are two objects, and `id` tells them apart.
`SmPhase.step` says which hooks and assignments of `m_current_state` may follow each
other: a state is entered, acts, exits, and then gives way to the target of one of its edges.
-/

namespace AutoDrop

structure StateConfig where
  name : String
  enter : String
  exit : String
  action : String
  next : String
  events : List (String × String)
deriving DecidableEq, Repr

structure SmConfig where
  initState : String
  states : List StateConfig

structure SmState where
  id : Nat
  config : StateConfig
deriving DecidableEq, Repr

inductive SmEvent
  | enter (state : SmState)
  | act (state : SmState)
  | exit (state : SmState)
  | assign (state : SmState)
deriving DecidableEq, Repr

inductive SmPhase
  | fresh (state : SmState)
  | inside (state : SmState)
  | exited (state : SmState)
deriving DecidableEq, Repr

/-- A lookup in `m_event_state_map`, where a later entry replaces an earlier one. -/
def StateConfig.eventState (state : StateConfig) (event : String) : Option String :=
  (state.events.reverse.find? fun entry => entry.1 = event).map Prod.snd

namespace SmConfig

def createSmState (config : SmConfig) (id : Nat) (name : String) : Option SmState :=
  (config.states.find? fun state => state.name = name).map (SmState.mk id)

def getEventState (config : SmConfig) (id : Nat) (state : SmState) (event : String) :
    Option SmState :=
  (state.config.eventState event).bind (config.createSmState id)

/-- The state that `do_action` returns. -/
def nextState (config : SmConfig) (id : Nat) (state : SmState) : Option SmState :=
  if state.config.next = "" then none else config.createSmState id state.config.next

/-- An edge by one of the events of the source, or by its `do.next`. -/
def Edge (config : SmConfig) (source target : SmState) : Prop :=
  (∃ entry ∈ source.config.events,
    config.getEventState target.id source entry.1 = some target) ∨
  config.nextState target.id source = some target

instance (config : SmConfig) (source target : SmState) : Decidable (config.Edge source target) :=
  inferInstanceAs (Decidable (_ ∨ _))

/-- Two states with an event each, for runs on a fixed configuration. -/
def buttons : SmConfig where
  initState := "idle"
  states :=
    [{ name := "idle", enter := "say_hello()", exit := "say_goodbye()", action := "", next := ""
       events := [("y_pushed", "active")] },
     { name := "active", enter := "", exit := "", action := "prompt()", next := ""
       events := [("n_pushed", "idle")] }]

theorem createSmState_id {config : SmConfig} {id : Nat} {name : String} {state : SmState}
    (created : config.createSmState id name = some state) : state.id = id := by
  simp only [createSmState, Option.map_eq_some_iff] at created
  obtain ⟨_, _, same⟩ := created
  rw [← same]

theorem edge_of_getEventState {config : SmConfig} {id : Nat} {source target : SmState}
    {event : String} (found : config.getEventState id source event = some target) :
    config.Edge source target := by
  have looked := found
  simp only [getEventState, StateConfig.eventState, Option.bind_eq_some_iff,
    Option.map_eq_some_iff] at looked
  obtain ⟨name, ⟨entry, listed, _⟩, created⟩ := looked
  have named : entry.1 = event := by
    simpa using List.find?_some listed
  refine .inl ⟨entry, List.mem_reverse.mp (List.mem_of_find?_eq_some listed), ?_⟩
  rw [named, createSmState_id created]
  exact found

theorem edge_of_nextState {config : SmConfig} {id : Nat} {source target : SmState}
    (found : config.nextState id source = some target) : config.Edge source target := by
  have created := found
  unfold nextState at created
  split at created
  · cases created
  · rw [← createSmState_id created] at found
    exact .inr found

end SmConfig

namespace SmPhase

def state : SmPhase → SmState
  | fresh state | inside state | exited state => state

def step (config : SmConfig) : SmPhase → SmEvent → Option SmPhase
  | fresh current, .enter state => if state = current then some (inside current) else none
  | inside current, .act state => if state = current then some (inside current) else none
  | inside current, .exit state => if state = current then some (exited current) else none
  | exited current, .assign state => if config.Edge current state then some (fresh state) else none
  | _, _ => none

end SmPhase

end AutoDrop
