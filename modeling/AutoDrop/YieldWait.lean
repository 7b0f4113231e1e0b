import AutoDrop.YieldAlarms
import AutoDrop.WakeSourcesLoop

/-!
A coroutine inside `yield_by_fd` with a timeout, where registrations succeed: its two nodes
stay registered until an event of one of them is dispatched.
-/

namespace AutoDrop

open LabelledRun EventLoop

def YieldCall.descriptors {Mutex : Type*} : YieldCall Mutex → List Nat
  | byFd fd timer => fd :: timer.toList
  | byTimer timerFd => [timerFd]
  | inLock _ => []

namespace ScNode

variable {Co Mutex : Type*} {node : ScNode Co} {co : Co} {yieldNo fd timerFd key : Nat}
  {call : YieldCall Mutex}

theorem mem_cleared_iff (source : node.source = some (co, yieldNo, call)) :
    key ∈ node.cleared ↔ key ∈ call.descriptors := by
  cases node with
  | other => simp [ScNode.source] at source
  | coEvent | coTimer =>
      simp only [ScNode.source, Option.some.injEq, Prod.mk.injEq] at source
      obtain ⟨-, -, rfl⟩ := source
      rfl
  | coTimeout =>
      simp only [ScNode.source, Option.some.injEq, Prod.mk.injEq] at source
      obtain ⟨-, -, rfl⟩ := source
      simp [cleared, YieldCall.descriptors, or_comm]

theorem mem_descriptors (source : node.source = some (co, yieldNo, call)) (placed : node.At fd) :
    fd ∈ call.descriptors := by
  rw [← mem_cleared_iff source]
  cases node with
  | other => simp [ScNode.source] at source
  | coEvent | coTimeout | coTimer => simp_all [At, cleared]

theorem internal_of_mem_cleared (member : key ∈ node.cleared) : node.internal = true := by
  cases node with
  | other => simp [cleared] at member
  | coEvent | coTimeout | coTimer => rfl

theorem exists_entry (Mutex : Type*) (inside : node.internal = true) :
    ∃ entry : Co × Nat × YieldCall Mutex, node.source = some entry := by
  cases node with
  | other => simp [internal] at inside
  | coEvent | coTimeout | coTimer => exact ⟨_, rfl⟩

end ScNode

namespace CoWorld

variable {Co Mutex : Type*} {world next : CoWorld Co Mutex} {co handler : Co}
  {yieldNo fd timerFd event : Nat} {node : ScNode Co}

section OwnCall

/-- A handler takes away only what is registered for its own call. -/
def OwnCall (world : CoWorld Co Mutex) : Prop :=
  ∀ fd node, world.loop.lookupNode fd = some node → ∀ (entry : Co × Nat × YieldCall Mutex),
    node.source = some entry → ∀ key ∈ node.cleared,
      ∃ found, world.loop.lookupNode key = some found ∧ found.source = some entry

theorem start_ownCall [DecidableEq Co] : OwnCall (start : CoWorld Co Mutex) := by
  simp [OwnCall, start, EventLoop.start, lookupNode]

theorem OwnCall.extend (own : OwnCall world)
    (kept : ∀ fd node, world.loop.lookupNode fd = some node → next.loop.lookupNode fd = some node)
    (made : ∀ fd node, next.loop.lookupNode fd = some node →
      world.loop.lookupNode fd = some node ∨ ∀ (entry : Co × Nat × YieldCall Mutex),
        node.source = some entry → ∀ key ∈ node.cleared,
          ∃ found, next.loop.lookupNode key = some found ∧ found.source = some entry) :
    OwnCall next := by
  intro fd node found entry source key member
  rcases made fd node found with before | new
  · obtain ⟨twin, known, its⟩ := own fd node before entry source key member
    exact ⟨twin, kept key twin known, its⟩
  · exact new entry source key member

theorem OwnCall.calm (own : OwnCall world) (calm : AlarmWorld.Calm world next) : OwnCall next := by
  refine own.extend calm.kept fun fd node found => ?_
  rcases calm.made fd node found with before | rfl
  · exact .inl before
  · exact .inr fun entry source => by simp [ScNode.source] at source

theorem OwnCall.remove (own : OwnCall world) (gone : Nat → Prop)
    (lookup : ∀ fd node, next.loop.lookupNode fd = some node ↔
      ¬gone fd ∧ world.loop.lookupNode fd = some node)
    (whole : ∀ fd node, world.loop.lookupNode fd = some node → ¬gone fd →
      ∀ key ∈ node.cleared, ¬gone key) : OwnCall next := by
  intro fd node found entry source key member
  obtain ⟨stays, before⟩ := (lookup fd node).mp found
  obtain ⟨twin, known, its⟩ := own fd node before entry source key member
  exact ⟨twin, (lookup key twin).mpr ⟨whole fd node before stays key member, known⟩, its⟩

variable [DecidableEq Co]

theorem lookupNode_yieldByFd {timer : Option Nat} {key : Nat}
    (free : world.loop.lookupNode fd = none)
    (timers : ∀ timerFd ∈ timer, timerFd ≠ fd ∧ world.loop.lookupNode timerFd = none) :
    (world.yieldByFd co fd timer).loop.lookupNode key =
      if key = fd then some (.coEvent fd co world.yieldCount timer)
      else if timer = some key then some (.coTimeout key fd co world.yieldCount)
      else world.loop.lookupNode key := by
  cases timer with
  | none =>
      rw [if_neg (by simp : ¬(none : Option Nat) = some key)]
      exact lookupNode_registerNode free
  | some timerFd =>
      obtain ⟨apart, timerFree⟩ := timers timerFd rfl
      have started : (world.registerNode timerFd
          (.coTimeout timerFd fd co world.yieldCount)).loop.lookupNode fd = none := by
        simp only [CoWorld.registerNode, lookupNode_registerNode timerFree,
          if_neg (Ne.symm apart), free]
      refine (lookupNode_registerNode started).trans ?_
      congr 1
      refine (lookupNode_registerNode timerFree).trans ?_
      by_cases same : key = timerFd
      · simp [same]
      · simp [same, Ne.symm same]

theorem lookupNode_yieldByTimer {key : Nat} (free : world.loop.lookupNode timerFd = none) :
    (world.yieldByTimer co timerFd).loop.lookupNode key =
      if key = timerFd then some (.coTimer timerFd co world.yieldCount)
      else world.loop.lookupNode key :=
  lookupNode_registerNode free

theorem kept_yieldByFd {timer : Option Nat} {key : Nat}
    (free : world.loop.lookupNode fd = none)
    (timers : ∀ timerFd ∈ timer, timerFd ≠ fd ∧ world.loop.lookupNode timerFd = none)
    (found : world.loop.lookupNode key = some node) :
    (world.yieldByFd co fd timer).loop.lookupNode key = some node := by
  have apart : key ≠ fd := fun same => by simp [same, free] at found
  have untimed : timer ≠ some key := fun same => by simp [(timers key same).2] at found
  rw [lookupNode_yieldByFd free timers, if_neg apart, if_neg untimed, found]

theorem kept_yieldByTimer {key : Nat} (free : world.loop.lookupNode timerFd = none)
    (found : world.loop.lookupNode key = some node) :
    (world.yieldByTimer co timerFd).loop.lookupNode key = some node := by
  have apart : key ≠ timerFd := fun same => by simp [same, free] at found
  rw [lookupNode_yieldByTimer free, if_neg apart, found]

theorem yieldByFd_ownCall {timer : Option Nat} (own : OwnCall world)
    (free : world.loop.lookupNode fd = none)
    (timers : ∀ timerFd ∈ timer, timerFd ≠ fd ∧ world.loop.lookupNode timerFd = none) :
    OwnCall (world.yieldByFd co fd timer) := by
  refine own.extend (fun _ _ found => kept_yieldByFd free timers found) fun key node found => ?_
  have twins : ∀ other ∈ fd :: timer.toList, ∃ twin,
      (world.yieldByFd co fd timer).loop.lookupNode other = some twin ∧
        twin.source = some (co, world.yieldCount, (.byFd fd timer : YieldCall Mutex)) := by
    intro other member
    rw [lookupNode_yieldByFd free timers]
    rcases List.mem_cons.mp member with rfl | timed
    · exact ⟨_, if_pos rfl, rfl⟩
    · obtain rfl : timer = some other := by simpa using timed
      exact ⟨_, (if_neg (timers other rfl).1).trans (if_pos rfl), rfl⟩
  rw [lookupNode_yieldByFd free timers] at found
  split at found
  · obtain rfl := Option.some.inj found
    refine .inr fun entry source other member => ?_
    rw [← source]
    exact twins other member
  · split at found
    · rename_i timed
      obtain rfl := Option.some.inj found
      refine .inr fun entry source other member => ?_
      rw [← source]
      obtain ⟨twin, looks, its⟩ := twins other (by
        simpa [ScNode.cleared, timed, or_comm] using member)
      exact ⟨twin, looks, by rw [its, timed]; rfl⟩
    · exact .inl found

theorem yieldByTimer_ownCall (own : OwnCall world) (free : world.loop.lookupNode timerFd = none) :
    OwnCall (world.yieldByTimer co timerFd) := by
  refine own.extend (fun _ _ found => kept_yieldByTimer free found) fun key node found => ?_
  rw [lookupNode_yieldByTimer free] at found
  split at found
  · obtain rfl := Option.some.inj found
    refine .inr fun entry source other member => ?_
    obtain rfl : other = timerFd := by simpa [ScNode.cleared] using member
    exact ⟨_, (lookupNode_yieldByTimer free).trans (if_pos rfl), source⟩
  · exact .inl found

theorem step_ownCall [DecidableEq Mutex] {label : WorldLabel Co Mutex}
    (invariant : WorldInvariant world) (own : OwnCall world)
    (taken : step world label = some next) : OwnCall next := by
  cases step_effect taken with
  | turn other moved => exact own.calm (AlarmWorld.turn_calm other moved)
  | resumeNext moved current => exact own.calm (AlarmWorld.resume_calm moved current)
  | @handleEvent co node current task internal =>
      have runs := invariant.loop.current co current
      obtain ⟨place, handled⟩ := invariant.handlers.armed co node task internal (.inr runs)
      refine own.remove (· ∈ node.cleared) (fun _ _ => AlarmWorld.lookupNode_handled)
        fun key partner found stays shared member gone => stays ?_
      -- the shared descriptor is registered for the calls of both, so it is one call
      obtain ⟨entry, source⟩ := ScNode.exists_entry Mutex internal
      obtain ⟨entry', source'⟩ :=
        ScNode.exists_entry Mutex (ScNode.internal_of_mem_cleared member)
      obtain ⟨first, looks, its⟩ := own place node handled entry source shared gone
      obtain ⟨second, looks', its'⟩ := own key partner found entry' source' shared member
      obtain rfl : first = second := Option.some.inj (looks.symm.trans looks')
      obtain rfl : entry = entry' := Option.some.inj (its.symm.trans its')
      have inside := ScNode.mem_descriptors source' (invariant.sources.placed key partner found)
      exact (ScNode.mem_cleared_iff source).mpr inside
  | addCo => exact own.calm AlarmWorld.addCo_calm
  | registerOther => exact own.calm (AlarmWorld.registerOther_calm _)
  | @unregisterOther fd acting plain =>
      refine own.remove (· = fd) (fun _ _ => ?_) fun key node found _ other member gone => ?_
      · rw [lookupNode_unregisterNode]
        exact Option.ite_none_left_eq_some
      · subst gone
        obtain ⟨entry, source⟩ :=
          ScNode.exists_entry Mutex (ScNode.internal_of_mem_cleared member)
        obtain ⟨twin, looks, its⟩ := own key node found entry source other member
        simp [looks, (ScNode.source_eq_some its).1] at plain
  | retry => exact own.calm AlarmWorld.retry_calm
  | yieldByFd program free timers => exact yieldByFd_ownCall own free timers
  | yieldByTimer program free => exact yieldByTimer_ownCall own free
  | lock => exact own.calm AlarmWorld.lock_calm
  | unlock => exact own.calm AlarmWorld.unlock_calm
  | finish => exact own.calm (AlarmWorld.leaveTurn_calm .dead (by simp))

theorem reachable_ownCall [DecidableEq Mutex] (reached : Reachable step start world) :
    OwnCall world := by
  have preserved : ∀ (world : CoWorld Co Mutex) label next, Reachable step start world →
      OwnCall world → step world label = some next → OwnCall next :=
    fun _ _ _ there own taken => step_ownCall (reachable_worldInvariant there) own taken
  refine invariant_along ?_ preserved reached
  exact start_ownCall

end OwnCall

section Waiting

/-- No handler for the call waits for its turn or runs. -/
def Undue (world : CoWorld Co Mutex) (entry : Co × Nat × YieldCall Mutex) : Prop :=
  ∀ handler node, world.loop.task handler = some node → node.source = some entry →
    world.loop.coState handler = none ∨ world.loop.coState handler = some .dead

/-- The coroutine sleeps in its call with both of its nodes registered, and neither has been
dispatched. -/
structure Waiting (world : CoWorld Co Mutex) (co : Co) (yieldNo fd timerFd : Nat) : Prop where
  asleep : SuspendedIn world co yieldNo (.byFd fd (some timerFd))
  event : world.loop.lookupNode fd = some (.coEvent fd co yieldNo (some timerFd))
  timeout : world.loop.lookupNode timerFd = some (.coTimeout timerFd fd co yieldNo)
  undue : Undue world (co, yieldNo, .byFd fd (some timerFd))

variable {entry : Co × Nat × YieldCall Mutex} {which : Co} {state : AcrState}

theorem Undue.of_same (undue : Undue world entry) (task : next.loop.task = world.loop.task)
    (coState : next.loop.coState = world.loop.coState) : Undue next entry := by
  intro handler node its source
  rw [coState]
  exact undue handler node (task ▸ its) source

theorem Prepared.undue {base : CoWorld Co Mutex} (prepared : Prepared world base)
    (undue : Undue world entry) : Undue base entry := by
  obtain ⟨fdToNode, mutexes, rfl⟩ := prepared
  exact undue

variable [DecidableEq Co]

theorem Undue.moves (undue : Undue world entry) (moves : Moves world next which state)
    (alive : world.loop.coState which ≠ none ∧ world.loop.coState which ≠ some .dead) :
    Undue next entry := by
  intro handler node its source
  rw [moves.1] at its
  have before := undue handler node its source
  have apart : handler ≠ which := by
    rintro rfl
    exact before.elim alive.1 alive.2
  rwa [moves.2, Function.update_of_ne apart]

theorem resume_moves {loop : EventLoop Co (ScNode Co)}
    (moved : world.loop.stepLoop .resumeNext = some loop) (current : loop.currentCo = some co) :
    Moves world (world.resume loop co) co .running := by
  obtain ⟨resumed, rest, still, -, -, now, rfl⟩ := stepLoop_resumeNext moved
  obtain rfl : resumed = co := Option.some.inj (now.symm.trans current)
  exact ⟨rfl, rfl⟩

/-- `epoll_wait` reports a descriptor, and the loop adds the handler of its node. -/
structure Dispatches (world next : CoWorld Co Mutex) (event : Nat) (handler : Co)
    (node : ScNode Co) : Prop where
  polling : world.loop.phase = .polling
  found : world.loop.lookupNode event = some node
  unborn : world.loop.coState handler = none
  added : next =
    { world with loop := { world.loop.addCo handler (some node) with phase := .entering } }

variable [DecidableEq Mutex] {label : WorldLabel Co Mutex}

theorem testHolder_undue {mutex : Mutex} (undue : Undue world entry)
    (alive : world.loop.coState co ≠ none ∧ world.loop.coState co ≠ some .dead) :
    Undue (world.testHolder co mutex) entry := by
  have moved : (world.testHolder co mutex).loop = world.loop ∨
      Moves world (world.testHolder co mutex) co .suspend := testHolder_moves
  rcases moved with same | moves
  · exact undue.of_same (by rw [same]) (by rw [same])
  · exact undue.moves moves alive

theorem step_undue (invariant : WorldInvariant world) (undue : Undue world entry)
    (taken : step world label = some next) :
    Undue next entry ∨ ∃ event handler node, node.source = some entry ∧
      Dispatches world next event handler node := by
  have runs {which : Co} (current : world.loop.currentCo = some which) :
      world.loop.coState which ≠ none ∧ world.loop.coState which ≠ some .dead := by
    simp [invariant.loop.current which current]
  cases step_effect taken with
  | turn other moved =>
      rcases stepLoop_cases other moved with
        ⟨-, same | ⟨event, node, added, polling, found, unborn, rfl⟩⟩
      · exact .inl (undue.of_same same.task same.coState)
      · by_cases its : node.source = some entry
        · exact .inr ⟨event, added, node, its, polling, found, unborn, rfl⟩
        · refine .inl fun handler node' task source => ?_
          by_cases own : handler = added
          · obtain rfl : node = node' := by simpa [addCo, own] using task
            exact absurd source its
          · simpa [addCo, own] using undue handler node' (by simpa [addCo, own] using task) source
  | resumeNext moved current =>
      obtain ⟨resumed, rest, still, phase, -, now, -⟩ := stepLoop_resumeNext moved
      obtain rfl := Option.some.inj (now.symm.trans current)
      have ready := (invariant.loop.snapshot _ _ phase).2 resumed (by simp)
      exact .inl (undue.moves (resume_moves moved current) (by simp [ready]))
  | @handleEvent co node current task internal =>
      obtain ⟨place, found⟩ := invariant.handlers.armed co node task internal
        (.inr (invariant.loop.current co current))
      obtain ⟨woken, suspended, moves⟩ := handleNode_moves invariant.settled found internal
      have handled := undue.moves moves (by simp [suspended])
      refine .inl (handled.moves finish_moves ?_)
      simp only [moves.2, Function.update_apply]
      split
      · simp
      · exact runs current
  | @addCo added _ unborn =>
      refine .inl fun handler node task source => ?_
      by_cases own : handler = added
      · simp [EventLoop.addCo, own] at task
      · have before : world.loop.task handler = some node := by
          simpa [EventLoop.addCo, own] using task
        simpa [EventLoop.addCo, own] using undue handler node before source
  | registerOther => exact .inl (((Prepared.refl world).registerNode _ _).undue undue)
  | unregisterOther => exact .inl (((Prepared.refl world).unregisterNode _).undue undue)
  | @retry co mutex current =>
      have before : Undue { world with
          retrying := Function.update world.retrying co none } entry := undue
      exact .inl (testHolder_undue before (runs current))
  | yieldByFd program =>
      exact .inl (undue.moves yieldByFd_moves (runs (program_eq_some program).1))
  | yieldByTimer program =>
      exact .inl (undue.moves yieldByTimer_moves (runs (program_eq_some program).1))
  | lock program =>
      refine .inl ?_
      unfold CoWorld.lock
      split
      · exact testHolder_undue undue (runs (program_eq_some program).1)
      · exact undue.of_same rfl rfl
  | unlock program =>
      rcases unlock_moves invariant.settled with same | ⟨woken, suspended, moves⟩
      · exact .inl (undue.of_same (by rw [same]) (by rw [same]))
      · exact .inl (undue.moves moves (by simp [suspended]))
  | finish program => exact .inl (undue.moves finish_moves (runs (program_eq_some program).1))

theorem step_kept {key : Nat} (invariant : WorldInvariant world) (own : OwnCall world)
    (undue : Undue world entry) (found : world.loop.lookupNode key = some node)
    (source : node.source = some entry) (taken : step world label = some next) :
    next.loop.lookupNode key = some node := by
  cases step_effect taken with
  | turn other moved => exact (AlarmWorld.turn_calm other moved).kept key node found
  | resumeNext moved current => exact (AlarmWorld.resume_calm moved current).kept key node found
  | @handleEvent co handled current task internal =>
      have runs := invariant.loop.current co current
      obtain ⟨place, armed⟩ := invariant.handlers.armed co handled task internal (.inr runs)
      refine AlarmWorld.lookupNode_handled.mpr ⟨fun member => ?_, found⟩
      obtain ⟨other, its⟩ := ScNode.exists_entry Mutex internal
      obtain ⟨twin, looks, same⟩ := own place handled armed other its key member
      obtain rfl : twin = node := Option.some.inj (looks.symm.trans found)
      obtain rfl : other = entry := Option.some.inj (same.symm.trans source)
      rcases undue co handled task its with gone | gone <;> simp [gone] at runs
  | addCo => exact found
  | registerOther => exact (AlarmWorld.registerOther_calm _).kept key node found
  | @unregisterOther fd _ plain =>
      rw [lookupNode_unregisterNode, if_neg, found]
      rintro rfl
      simp [found, (ScNode.source_eq_some source).1] at plain
  | retry => exact AlarmWorld.retry_calm.kept key node found
  | yieldByFd _ free timers => exact kept_yieldByFd free timers found
  | yieldByTimer _ free => exact kept_yieldByTimer free found
  | lock => exact AlarmWorld.lock_calm.kept key node found
  | unlock => exact AlarmWorld.unlock_calm.kept key node found
  | finish => exact found

theorem Waiting.step (invariant : WorldInvariant world) (own : OwnCall world)
    (waiting : Waiting world co yieldNo fd timerFd) (taken : CoWorld.step world label = some next) :
    Waiting next co yieldNo fd timerFd ∨ ∃ event handler node, (event = fd ∨ event = timerFd) ∧
      Dispatches world next event handler node := by
  rcases step_undue invariant waiting.undue taken with
    undue | ⟨event, handler, node, source, dispatches⟩
  · have event := step_kept invariant own waiting.undue waiting.event rfl taken
    have timeout := step_kept invariant own waiting.undue waiting.timeout rfl taken
    have asleep := (step_worldInvariant invariant taken).sources.nodes fd _ event co yieldNo _ rfl
    exact .inl ⟨asleep, event, timeout, undue⟩
  · refine .inr ⟨event, handler, node, ?_, dispatches⟩
    have placed := invariant.sources.placed event node dispatches.found
    have inside := ScNode.mem_descriptors source placed
    simpa [YieldCall.descriptors] using inside

theorem yieldByFd_waiting (invariant : WorldInvariant world) (program : world.program = some co)
    (taken : CoWorld.step world (.yieldByFd fd (some timerFd)) = some next) :
    Waiting next co world.yieldCount fd timerFd ∧
      ∀ key, key ≠ fd → key ≠ timerFd →
        next.loop.lookupNode key = world.loop.lookupNode key := by
  have after := step_worldInvariant invariant taken
  obtain ⟨current, plain⟩ := program_eq_some program
  have noHandler := invariant.noHandler (.inr ⟨co, current, plain⟩)
  obtain ⟨which, programs, yields⟩ := Option.bind_eq_some_iff.mp taken
  obtain rfl := Option.some.inj (programs.symm.trans program)
  simp only [stepProgram, Option.ite_none_right_eq_some, Option.some.injEq] at yields
  obtain ⟨⟨free, timers⟩, rfl⟩ := yields
  have event : (world.yieldByFd which fd (some timerFd)).loop.lookupNode fd =
      some (.coEvent fd which world.yieldCount (some timerFd)) :=
    (lookupNode_yieldByFd free timers).trans (if_pos rfl)
  have timeout : (world.yieldByFd which fd (some timerFd)).loop.lookupNode timerFd =
      some (.coTimeout timerFd fd which world.yieldCount) :=
    (lookupNode_yieldByFd free timers).trans ((if_neg (timers timerFd rfl).1).trans (if_pos rfl))
  refine ⟨⟨after.sources.nodes fd _ event which _ _ rfl, event, timeout,
    fun handler node task source => ?_⟩, fun key first second => ?_⟩
  · exact noHandler.moves yieldByFd_moves plain handler node task
      (ScNode.source_eq_some source).1
  · rw [lookupNode_yieldByFd free timers, if_neg first, if_neg (by simpa using Ne.symm second)]

end Waiting

end CoWorld

end AutoDrop
