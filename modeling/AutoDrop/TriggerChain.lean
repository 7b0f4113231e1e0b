import AutoDrop.CliRunner
import AutoDrop.PartialOrbit

/-!
The recursion of `trigger` and `change_state`, one call for each state that the machine
changes to. It has no bound of its own: it ends where `do.next` leads to a state without one.
-/

namespace AutoDrop

open PartialOrbit

/-- The part of a `DYNAMIC_SM` that the recursion changes; `nextId` names the next object. -/
structure DynamicSm where
  currentState : SmState
  nextId : Nat
deriving DecidableEq, Repr

namespace DynamicSm

def changeState (machine : DynamicSm) (next : SmState) : DynamicSm :=
  { machine with currentState := next, nextId := machine.nextId + 1 }

/-- `trigger` with room for so many nested calls; none where they are not enough. -/
def trigger (config : SmConfig) : Nat → DynamicSm → Option DynamicSm
  | 0, _ => none
  | depth + 1, machine =>
      match config.nextState machine.nextId machine.currentState with
      | none => some machine
      | some next => trigger config depth (machine.changeState next)

def procEvent (config : SmConfig) (depth : Nat) (machine : DynamicSm) (event : String) :
    Option DynamicSm :=
  match config.getEventState machine.nextId machine.currentState event with
  | none => some machine
  | some next => trigger config depth (machine.changeState next)

def On (config : SmConfig) (machine : DynamicSm) : Prop :=
  ∃ id name, config.createSmState id name = some machine.currentState

/-- `begin` and every event come to an end, however deep the calls go. -/
def AlwaysEnds (config : SmConfig) (machine : DynamicSm) : Prop :=
  (∃ depth, (trigger config depth machine).isSome) ∧
    ∀ event, ∃ depth, (procEvent config depth machine event).isSome

end DynamicSm

def CliConfig.nextOf (config : CliConfig) (name : Chars) : Option Chars :=
  (config.getState name).bind fun state => if state.next = [] then none else some state.next

section Lookup

variable {α β : Type*} {read : α → Option β} {inputs : List α} {outputs : List β}

theorem find_mapM {here : α → Bool} {there : β → Bool}
    (agree : ∀ input output, read input = some output → there output = here input)
    (all : inputs.mapM read = some outputs) :
    outputs.find? there = (inputs.find? here).bind read := by
  induction inputs generalizing outputs with
  | nil =>
      simp only [List.mapM_nil, Option.pure_def, Option.some.injEq] at all
      simp [← all]
  | cons input rest ih =>
      obtain ⟨first, later, reads, remaining, rfl⟩ := mapM_cons_eq_some all
      rw [List.find?_cons, List.find?_cons, agree input first reads, ih remaining]
      cases here input with
      | true => exact reads.symm
      | false => rfl

end Lookup

namespace CliConfig

variable {config : CliConfig} {sm : SmConfig} {machine : DynamicSm} {name : Chars} {id : Nat}

theorem createSmState_ofList (read : config.toSmConfig = some sm) :
    sm.createSmState id (String.ofList name) =
      ((config.getState name).bind StateNode.read).map (SmState.mk id) := by
  simp only [toSmConfig, Option.map_eq_some_iff] at read
  obtain ⟨states, listed, rfl⟩ := read
  rw [SmConfig.createSmState, getState]
  refine congrArg (Option.map _) (find_mapM (fun state output done => ?_) listed)
  rw [(StateNode.read_fields done).1, decide_eq_decide]
  exact String.ofList_inj

theorem nextState_eq (read : config.toSmConfig = some sm)
    {state : SmState} {other : Nat}
    (created : sm.createSmState other (String.ofList name) = some state) :
    sm.nextState id state =
      (config.nextOf name).bind fun next => sm.createSmState id (String.ofList next) := by
  rw [createSmState_ofList read] at created
  simp only [Option.map_eq_some_iff, Option.bind_eq_some_iff] at created
  obtain ⟨stateConfig, ⟨node, found, done⟩, rfl⟩ := created
  have next := (StateNode.read_fields done).2.1
  simp only [SmConfig.nextState, nextOf, found, Option.bind_some, next]
  by_cases empty : node.next = []
  · simp [empty]
  · have named : String.ofList node.next ≠ "" := fun same => empty (by
      rw [← String.ofList_nil] at same
      exact String.ofList_inj.mp same)
    rw [if_neg named, if_neg empty, Option.bind_some]

theorem created_of_mem (closed : config.Closed) (read : config.toSmConfig = some sm)
    (listed : name ∈ config.stateNames) (id : Nat) :
    ∃ state, sm.createSmState id (String.ofList name) = some state := by
  obtain ⟨node, found⟩ := Option.isSome_iff_exists.mp (getState_isSome.mpr listed)
  obtain ⟨stateConfig, done⟩ :=
    (closed.state node (List.mem_of_find?_eq_some found)).reads
  exact ⟨⟨id, stateConfig⟩, by rw [createSmState_ofList read, found, Option.bind_some, done]; rfl⟩

theorem nextOf_mem (closed : config.Closed) {next : Chars}
    (leads : config.nextOf name = some next) : next ∈ config.stateNames := by
  simp only [nextOf, Option.bind_eq_some_iff] at leads
  obtain ⟨state, found, leads⟩ := leads
  split at leads
  · cases leads
  · rename_i named
    obtain rfl := Option.some.inj leads
    exact (closed.state state (List.mem_of_find?_eq_some found)).next named

/-- The nested calls are the steps along `do.next`. -/
theorem trigger_isSome_iff (closed : config.Closed) (read : config.toSmConfig = some sm)
    (depth : Nat)
    (here : ∃ id, sm.createSmState id (String.ofList name) = some machine.currentState) :
    (machine.trigger sm depth).isSome ↔ orbit config.nextOf depth name = none := by
  induction depth generalizing machine name with
  | zero => simp [DynamicSm.trigger, orbit]
  | succ depth ih =>
      obtain ⟨other, created⟩ := here
      rw [DynamicSm.trigger, nextState_eq read created, orbit]
      cases leads : config.nextOf name with
      | none => simp
      | some next =>
          obtain ⟨state, found⟩ := created_of_mem closed read
            (nextOf_mem closed leads) machine.nextId
          simp only [Option.bind_some, found]
          exact ih ⟨machine.nextId, found⟩

theorem orbit_mem (closed : config.Closed) (listed : name ∈ config.stateNames) (steps : Nat)
    (target : Chars) (reached : orbit config.nextOf steps name = some target) :
    target ∈ config.stateNames := by
  induction steps generalizing name with
  | zero =>
      obtain rfl := Option.some.inj reached
      exact listed
  | succ steps ih =>
      obtain ⟨next, leads, later⟩ := Option.bind_eq_some_iff.mp reached
      exact ih (nextOf_mem closed leads) later

theorem created_name (read : config.toSmConfig = some sm) {state : SmState}
    (created : sm.createSmState id (String.ofList name) = some state) :
    state.config.name.toList = name ∧ name ∈ config.stateNames := by
  rw [createSmState_ofList read] at created
  simp only [Option.map_eq_some_iff, Option.bind_eq_some_iff] at created
  obtain ⟨stateConfig, ⟨node, found, done⟩, rfl⟩ := created
  have same : node.name = name := by simpa using List.find?_some found
  rw [(StateNode.read_fields done).1, String.toList_ofList]
  exact ⟨same, mem_stateNames found⟩

theorem trigger_ends_of_created (closed : config.Closed) (read : config.toSmConfig = some sm)
    (on : machine.On sm) :
    ((∃ depth, (machine.trigger sm depth).isSome) ↔
        ¬Cycles config.nextOf machine.currentState.config.name.toList) ∧
      (¬Cycles config.nextOf machine.currentState.config.name.toList →
        (machine.trigger sm config.states.length).isSome) := by
  obtain ⟨id, name, created⟩ := on
  rw [← @String.ofList_toList name] at created
  obtain ⟨same, listed⟩ := created_name read created
  have inside := orbit_mem closed listed
  simp only [same, trigger_isSome_iff closed read _ ⟨id, created⟩]
  refine ⟨ends_iff inside, fun acyclic => ?_⟩
  have length : config.stateNames.length = config.states.length := List.length_map _
  rw [← length]
  exact orbit_length_eq_none inside acyclic

/-- The recursion of `begin` ends exactly if `do.next` leads to no cycle from the current
state, and that of an event exactly if it leads to none from the event's target; it then
takes no more nested calls than there are states. -/
theorem trigger_ends_iff (config : CliConfig) (built : config.Built) (sm : SmConfig)
    (read : config.toSmConfig = some sm) (machine : DynamicSm) (on : machine.On sm) :
    ((∃ depth, (machine.trigger sm depth).isSome) ↔
        ¬Cycles config.nextOf machine.currentState.config.name.toList) ∧
      (∀ event, (∃ depth, (machine.procEvent sm depth event).isSome) ↔
        ∀ target, sm.getEventState machine.nextId machine.currentState event = some target →
          ¬Cycles config.nextOf target.config.name.toList) ∧
      (∀ depth, (machine.trigger sm depth).isSome →
        (machine.trigger sm config.states.length).isSome) ∧
      ∀ event depth, (machine.procEvent sm depth event).isSome →
        (machine.procEvent sm config.states.length event).isSome := by
  have closed := built.closed
  have own := trigger_ends_of_created closed read on
  have targets (event : String) (target : SmState)
      (found : sm.getEventState machine.nextId machine.currentState event = some target) :
      DynamicSm.On sm (machine.changeState target) := by
    simp only [SmConfig.getEventState, Option.bind_eq_some_iff] at found
    obtain ⟨name, _, created⟩ := found
    exact ⟨machine.nextId, name, created⟩
  refine ⟨own.1, fun event => ?_, fun depth ended => own.2 (own.1.mp ⟨depth, ended⟩),
    fun event depth ended => ?_⟩
  · cases found : sm.getEventState machine.nextId machine.currentState event with
    | none => simp [DynamicSm.procEvent, found]
    | some target =>
        simp only [DynamicSm.procEvent, found, Option.some.injEq, forall_eq']
        exact (trigger_ends_of_created closed read (targets event target found)).1
  · cases found : sm.getEventState machine.nextId machine.currentState event with
    | none => simp [DynamicSm.procEvent, found]
    | some target =>
        simp only [DynamicSm.procEvent, found] at ended ⊢
        have chain := trigger_ends_of_created closed read (targets event target found)
        exact chain.2 (chain.1.mp ⟨depth, ended⟩)

theorem trigger_ends_iff_twoStates : ∃ sm, twoStates.toSmConfig = some sm ∧
    ∃ machine : DynamicSm, machine.On sm ∧
      ¬Cycles twoStates.nextOf machine.currentState.config.name.toList := by
  obtain ⟨sm, read⟩ := Option.isSome_iff_exists.mp (show twoStates.toSmConfig.isSome by rfl)
  have first : (twoStates.toSmConfig.bind fun sm => (sm.createSmState 0 "a").bind fun state =>
      DynamicSm.trigger sm 2 ⟨state, 1⟩).isSome := by rfl
  simp only [read, Option.bind_some] at first
  obtain ⟨ended, first⟩ := Option.isSome_iff_exists.mp first
  obtain ⟨state, created, ended⟩ := Option.bind_eq_some_iff.mp first
  exact ⟨sm, read, ⟨state, 1⟩, ⟨0, "a", created⟩,
    (trigger_ends_iff twoStates ⟨_, .inr rfl⟩ sm read ⟨state, 1⟩ ⟨0, "a", created⟩).1.mp
      ⟨2, by rw [ended]; rfl⟩⟩

def selfLoop : CliConfig :=
  [⟨.silent, .createState, ["a".toList]⟩,
    ⟨.silent, .setNext, ["a".toList, "a".toList]⟩].foldl call cleared

theorem selfLoop_never_ends : ¬∀ config : CliConfig, config.Built → ∀ sm,
    config.toSmConfig = some sm → ∀ machine : DynamicSm, machine.On sm →
      machine.AlwaysEnds sm := by
  intro always
  have built : selfLoop.Built := ⟨_, .inr rfl⟩
  obtain ⟨sm, read, _⟩ := built.closed.toSmConfig
  obtain ⟨state, created⟩ := created_of_mem built.closed read
    (show "a".toList ∈ selfLoop.stateNames by decide) 0
  obtain ⟨depth, ended⟩ := (always selfLoop built sm read ⟨state, 1⟩ ⟨0, _, created⟩).1
  rw [trigger_isSome_iff built.closed read depth ⟨0, created⟩] at ended
  have cycles : Cycles selfLoop.nextOf "a".toList := ⟨0, 1, "a".toList, by decide, rfl, rfl⟩
  exact cycles.never_ends depth ended

end CliConfig

end AutoDrop
