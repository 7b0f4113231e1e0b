import AutoDrop.SupervisorCore

/-!
What holds in every run of the supervisor: a live child is the present child of its
node, a node in its restart delay has none, and a descriptor that is watched is that of
the node, or of the call, it is registered for.
-/

namespace AutoDrop

open LabelledRun EventSc

def FdNode.of : FdNode → Nat
  | .subprocess node => node
  | .coEvent stop => stop.node

namespace Supervisor

/-- Something of the supervisor still refers to the node. -/
def Held (supervisor : Supervisor) (node : Nat) : Prop :=
  supervisor.delayed node = true ∨
    supervisor.sc.watched (supervisor.nodes node).fd = some (.subprocess node) ∨
    (∃ stop ∈ supervisor.stops, stop.node = node) ∨
    supervisor.subprocessMap (supervisor.nodes node).port = some node

/-- Nothing comes of the start that made the node any more: no child lives, none will be
restarted, and no call waits to stop it. -/
def Finished (supervisor : Supervisor) (node : Nat) : Prop :=
  supervisor.status node ≠ .live ∧ supervisor.delayed node = false ∧
    supervisor.sc.watched (supervisor.nodes node).fd ≠ some (.subprocess node) ∧
    ∀ stop ∈ supervisor.stops, stop.node ≠ node

instance (supervisor : Supervisor) (node : Nat) : Decidable (Finished supervisor node) :=
  inferInstanceAs (Decidable (_ ∧ _))

structure Tracked (supervisor : Supervisor) : Prop where
  owner : ∀ pid, (supervisor.children pid).status = .live →
    (supervisor.nodes (supervisor.children pid).node).pid = pid ∧
      (supervisor.nodes (supervisor.children pid).node).port = (supervisor.children pid).port ∧
      (supervisor.children pid).node < supervisor.nextNode
  pids : ∀ node, node < supervisor.nextNode →
    (supervisor.nodes node).pid < supervisor.nextPid ∧
      (supervisor.children (supervisor.nodes node).pid).node = node
  delay : ∀ node, supervisor.delayed node = true →
    node < supervisor.nextNode ∧ supervisor.status node ≠ .live
  exitEntry : ∀ fd node, supervisor.sc.watched fd = some (.subprocess node) →
    node < supervisor.nextNode ∧ (supervisor.nodes node).fd = fd
  stopEntry : ∀ fd stop, supervisor.sc.watched fd = some (.coEvent stop) →
    stop ∈ supervisor.stops ∧ (supervisor.nodes stop.node).fd = fd
  waiting : ∀ stop ∈ supervisor.stops,
    stop.node < supervisor.nextNode ∧ (supervisor.nodes stop.node).port = stop.port
  entries : ∀ port node, supervisor.subprocessMap port = some node →
    node < supervisor.nextNode ∧ (supervisor.nodes node).port = port
  opened : ∀ node, Held supervisor node →
    supervisor.pidfd (supervisor.nodes node).fd = some (supervisor.nodes node).pid

theorem start_tracked : Tracked start := by
  constructor
  · intro pid live
    cases live
  · intro node bound
    cases bound
  · intro node delayed
    cases delayed
  · intro fd node watches
    cases watches
  · intro fd stop watches
    cases watches
  · intro stop member
    cases member
  · intro port node entry
    cases entry
  · rintro node (delayed | watches | ⟨stop, member, _⟩ | entry)
    · cases delayed
    · cases watches
    · cases member
    · cases entry

variable {supervisor next : Supervisor}

/-- A step that makes nothing new: it may end children, take descriptors out of the
registry, and drop entries and calls. -/
structure Shrinks (supervisor next : Supervisor) : Prop where
  nodes : next.nodes = supervisor.nodes
  nextNode : next.nextNode = supervisor.nextNode
  nextPid : next.nextPid = supervisor.nextPid
  pidfd : next.pidfd = supervisor.pidfd
  child : ∀ pid, (next.children pid).node = (supervisor.children pid).node ∧
    (next.children pid).port = (supervisor.children pid).port ∧
    ((next.children pid).status = .live → (supervisor.children pid).status = .live)
  delayed : ∀ node, next.delayed node = true → supervisor.delayed node = true
  watched : ∀ fd handler, next.sc.watched fd = some handler →
    supervisor.sc.watched fd = some handler
  stops : ∀ stop ∈ next.stops, stop ∈ supervisor.stops
  stopEntry : ∀ fd stop, next.sc.watched fd = some (.coEvent stop) → stop ∈ next.stops
  entries : ∀ port node, next.subprocessMap port = some node →
    supervisor.subprocessMap port = some node

theorem Shrinks.held (shrinks : Shrinks supervisor next) {node : Nat} (held : Held next node) :
    Held supervisor node := by
  obtain ⟨nodes, _, _, _, _, delayed, watched, stops, _, entries⟩ := shrinks
  unfold Held at held ⊢
  rw [nodes] at held
  rcases held with delay | watches | ⟨stop, member, same⟩ | entry
  · exact .inl (delayed node delay)
  · exact .inr (.inl (watched _ _ watches))
  · exact .inr (.inr (.inl ⟨stop, stops stop member, same⟩))
  · exact .inr (.inr (.inr (entries _ _ entry)))

theorem Shrinks.tracked (shrinks : Shrinks supervisor next) (tracked : Tracked supervisor) :
    Tracked next := by
  have nodes := shrinks.nodes
  constructor
  · intro pid live
    obtain ⟨node, port, alive⟩ := shrinks.child pid
    rw [node, port, nodes, shrinks.nextNode]
    exact tracked.owner pid (alive live)
  · intro node bound
    rw [shrinks.nextNode] at bound
    rw [nodes, shrinks.nextPid, (shrinks.child _).1]
    exact tracked.pids node bound
  · intro node delayed
    obtain ⟨bound, dead⟩ := tracked.delay node (shrinks.delayed node delayed)
    rw [shrinks.nextNode]
    refine ⟨bound, fun live => dead ?_⟩
    unfold status at live ⊢
    rw [nodes] at live
    exact (shrinks.child _).2.2 live
  · intro fd node watches
    rw [nodes, shrinks.nextNode]
    exact tracked.exitEntry fd node (shrinks.watched fd _ watches)
  · intro fd stop watches
    rw [nodes]
    exact ⟨shrinks.stopEntry fd stop watches,
      (tracked.stopEntry fd stop (shrinks.watched fd _ watches)).2⟩
  · intro stop member
    rw [nodes, shrinks.nextNode]
    exact tracked.waiting stop (shrinks.stops stop member)
  · intro port node entry
    rw [nodes, shrinks.nextNode]
    exact tracked.entries port node (shrinks.entries port node entry)
  · intro node held
    rw [nodes, shrinks.pidfd]
    exact tracked.opened node (shrinks.held held)

theorem setStatus_child {status : ChildStatus} (dead : status ≠ .live) (pid other : Nat) :
    ((supervisor.setStatus pid status).children other).node = (supervisor.children other).node ∧
      ((supervisor.setStatus pid status).children other).port =
        (supervisor.children other).port ∧
      (((supervisor.setStatus pid status).children other).status = .live →
        (supervisor.children other).status = .live) := by
  by_cases same : other = pid
  · simp [setStatus, same, dead]
  · simp [setStatus, same]

theorem reap_child (children : Nat → Child) (pid other : Nat) :
    (reap children pid other).node = (children other).node ∧
      (reap children pid other).port = (children other).port ∧
      ((reap children pid other).status = .live → (children other).status = .live) := by
  cases state : (children pid).status with
  | live | reaped => simp [reap, state]
  | exited ok =>
      by_cases same : other = pid
      · simp [reap, state, same]
      · simp [reap, state, same]

theorem childExit_eq {pid : Nat} {ok : Bool} (taken : supervisor.childExit pid ok = some next) :
    next = supervisor.setStatus pid (.exited ok) := by
  unfold childExit at taken
  split at taken
  · exact (Option.some.inj taken).symm
  · cases taken

theorem childExit_shrinks (tracked : Tracked supervisor) {pid : Nat} {ok : Bool}
    (taken : supervisor.childExit pid ok = some next) : Shrinks supervisor next := by
  have same := childExit_eq taken
  subst next
  refine ⟨rfl, rfl, rfl, rfl, ?_, fun _ delayed => delayed, fun _ _ watches => watches,
    fun _ member => member, fun fd stop watches => ?_, fun _ _ entry => entry⟩
  · exact setStatus_child (by simp) pid
  · exact (tracked.stopEntry fd stop watches).1

theorem coEvent_shrinks (tracked : Tracked supervisor) {fd : Nat} {stop : StopCall}
    (watches : supervisor.sc.watched fd = some (.coEvent stop)) :
    Shrinks supervisor (supervisor.coEvent fd stop) := by
  refine ⟨rfl, rfl, rfl, rfl, ?_, fun _ delayed => delayed, fun other handler watched => ?_,
    fun _ member => List.mem_of_mem_erase member, fun other call watched => ?_,
    fun port node entry => ?_⟩
  · exact reap_child supervisor.children _
  · exact (watched_unregisterNode.mp watched).2
  · obtain ⟨different, before⟩ := watched_unregisterNode.mp watched
    obtain ⟨member, own⟩ := tracked.stopEntry other call before
    refine (List.mem_erase_of_ne ?_).mpr member
    rintro rfl
    rw [(tracked.stopEntry fd call watches).2] at own
    exact different own.symm
  · by_cases same : port = stop.port
    · simp [coEvent, same] at entry
    · simpa [coEvent, same] using entry

theorem delay_tracked (tracked : Tracked supervisor) {fd node : Nat} {delayed : Nat → Bool}
    (watches : supervisor.sc.watched fd = some (.subprocess node))
    (dead : supervisor.status node ≠ .live)
    (within : ∀ other, delayed other = true →
      supervisor.delayed other = true ∨ other = node) :
    Tracked { supervisor with delayed := delayed } := by
  obtain ⟨bound, own⟩ := tracked.exitEntry fd node watches
  refine ⟨tracked.owner, tracked.pids, fun other delays => ?_, tracked.exitEntry,
    tracked.stopEntry, tracked.waiting, tracked.entries, fun other held => ?_⟩
  · rcases within other delays with before | same
    · exact tracked.delay other before
    · exact same ▸ ⟨bound, dead⟩
  · apply tracked.opened other
    rcases held with delays | rest
    · rcases within other delays with before | same
      · exact .inl before
      · rw [same]
        exact .inr (.inl (own.symm ▸ watches))
    · exact .inr rest

theorem subprocessEvent_shrinks (tracked : Tracked supervisor) (node : Nat) (garbage : Bool) :
    Shrinks { supervisor with
        delayed :=
          if supervisor.exitOk node garbage = true then supervisor.delayed
          else Function.update supervisor.delayed node true }
      (supervisor.subprocessEvent node garbage) := by
  refine ⟨rfl, rfl, rfl, rfl, ?_, fun _ delayed => delayed, fun other handler watched => ?_,
    fun _ member => member, fun other stop watched => ?_, fun _ _ entry => entry⟩
  · exact reap_child supervisor.children _
  · exact (watched_unregisterNode.mp watched).2
  · exact (tracked.stopEntry other stop (watched_unregisterNode.mp watched).2).1

theorem subprocessEvent_tracked (tracked : Tracked supervisor) {fd node : Nat}
    (garbage : Bool) (watches : supervisor.sc.watched fd = some (.subprocess node))
    (dead : supervisor.status node ≠ .live) :
    Tracked (supervisor.subprocessEvent node garbage) := by
  apply (subprocessEvent_shrinks tracked node garbage).tracked
  refine delay_tracked tracked watches dead (fun other delays => ?_)
  split at delays
  · exact .inl delays
  · by_cases same : other = node
    · exact .inr same
    · rw [Function.update_of_ne same] at delays
      exact .inl delays

theorem handleEvent_cases (tracked : Tracked supervisor) {fd : Nat} {garbage : Bool}
    (taken : supervisor.handleEvent fd garbage = some next) :
    (∃ node, supervisor.sc.watched fd = some (.subprocess node) ∧
      supervisor.status node ≠ .live ∧ next = supervisor.subprocessEvent node garbage) ∨
    ∃ stop, supervisor.sc.watched fd = some (.coEvent stop) ∧
      supervisor.status stop.node ≠ .live ∧ next = supervisor.coEvent fd stop := by
  unfold handleEvent at taken
  split at taken
  · rename_i node pid watches opened
    split at taken
    · cases taken
    · rename_i dead
      simp only [Option.some.injEq] at taken
      cases node with
      | subprocess node =>
          obtain ⟨_, own⟩ := tracked.exitEntry fd node watches
          have held : Held supervisor node := .inr (.inl (own.symm ▸ watches))
          have same := tracked.opened node held
          rw [own, opened, Option.some.injEq] at same
          exact .inl ⟨node, watches, by unfold status; rw [← same]; exact dead, taken.symm⟩
      | coEvent stop =>
          obtain ⟨member, own⟩ := tracked.stopEntry fd stop watches
          have held : Held supervisor stop.node := .inr (.inr (.inl ⟨stop, member, rfl⟩))
          have same := tracked.opened stop.node held
          rw [own, opened, Option.some.injEq] at same
          exact .inr ⟨stop, watches, by unfold status; rw [← same]; exact dead, taken.symm⟩
  · cases taken

theorem listPort_tracked (tracked : Tracked supervisor) (kind : DaemonKind) (port : Nat)
    (node : Option Nat) : Tracked (supervisor.listPort kind port node) :=
  ⟨tracked.owner, tracked.pids, tracked.delay, tracked.exitEntry, tracked.stopEntry,
    tracked.waiting, tracked.entries, tracked.opened⟩

theorem waitStopDaemon_tracked (tracked : Tracked supervisor) (port started : Nat) :
    Tracked (supervisor.waitStopDaemon port started) := by
  unfold waitStopDaemon
  split
  · exact ⟨tracked.owner, tracked.pids, tracked.delay, tracked.exitEntry, tracked.stopEntry,
      tracked.waiting, tracked.entries, tracked.opened⟩
  · rename_i node entry
    have listed := tracked.entries port node entry
    refine ⟨tracked.owner, tracked.pids, tracked.delay, fun fd other watches => ?_,
      fun fd stop watches => ?_, fun stop member => ?_, tracked.entries, fun other held => ?_⟩
    · rcases watched_registerNode watches with ⟨_, same⟩ | before
      · cases same
      · exact tracked.exitEntry fd other (watched_unregisterNode.mp before).2
    · rcases watched_registerNode watches with ⟨own, same⟩ | before
      · cases same
        exact ⟨List.mem_cons_self, own.symm⟩
      · obtain ⟨member, own⟩ := tracked.stopEntry fd stop (watched_unregisterNode.mp before).2
        exact ⟨List.mem_cons_of_mem _ member, own⟩
    · rcases List.mem_cons.mp member with same | before
      · subst stop
        exact listed
      · exact tracked.waiting stop before
    · apply tracked.opened other
      rcases held with delays | watches | ⟨stop, member, same⟩ | entries
      · exact .inl delays
      · rcases watched_registerNode watches with ⟨_, same⟩ | before
        · cases same
        · exact .inr (.inl (watched_unregisterNode.mp before).2)
      · rcases List.mem_cons.mp member with new | before
        · rw [new] at same
          cases same
          refine .inr (.inr (.inr ?_))
          rw [listed.2]
          exact entry
        · exact .inr (.inr (.inl ⟨stop, before, same⟩))
      · exact .inr (.inr (.inr entries))

theorem stopRun_tracked (tracked : Tracked supervisor) (kind : DaemonKind) (port : Nat) :
    Tracked (supervisor.stopRun kind port) := by
  unfold stopRun
  split
  · exact ⟨tracked.owner, tracked.pids, tracked.delay, tracked.exitEntry, tracked.stopEntry,
      tracked.waiting, tracked.entries, tracked.opened⟩
  · exact waitStopDaemon_tracked (listPort_tracked tracked kind port none) port _

/-- A node, new or without a live child, gets a child. -/
structure Launches (supervisor next : Supervisor) (node port fd : Nat) : Prop where
  nodes : next.nodes = Function.update supervisor.nodes node ⟨port, supervisor.nextPid, fd⟩
  children : next.children =
    Function.update supervisor.children supervisor.nextPid ⟨node, port, .live⟩
  nextPid : next.nextPid = supervisor.nextPid + 1
  bound : node < next.nextNode
  known : ∀ other, other ≠ node → (other < next.nextNode ↔ other < supervisor.nextNode)
  dead : ∀ pid, (supervisor.children pid).status = .live →
    (supervisor.children pid).node ≠ node
  delayed : ∀ other, next.delayed other = true → supervisor.delayed other = true ∧ other ≠ node
  watched : ∀ other entry, next.sc.watched other = some entry →
    other = fd ∧ entry = .subprocess node ∨
      supervisor.sc.watched other = some entry ∧ entry.of ≠ node
  stops : next.stops = supervisor.stops
  ports : ∀ stop ∈ supervisor.stops, stop.node = node → stop.port = port
  entries : ∀ place other, next.subprocessMap place = some other →
    other = node ∧ place = port ∨ supervisor.subprocessMap place = some other ∧
      (other = node → place = port)
  opened : next.pidfd fd = some supervisor.nextPid
  others : ∀ other, other ≠ node → Held supervisor other →
    next.pidfd (supervisor.nodes other).fd = some (supervisor.nodes other).pid

theorem Launches.held {node port fd other : Nat} (launches : Launches supervisor next node port fd)
    (different : other ≠ node) (held : Held next other) : Held supervisor other := by
  unfold Held at held ⊢
  rw [launches.nodes, Function.update_of_ne different, launches.stops] at held
  rcases held with delays | watches | stopping | entry
  · exact .inl (launches.delayed other delays).1
  · rcases launches.watched _ _ watches with ⟨_, same⟩ | ⟨before, _⟩
    · cases same
      exact absurd rfl different
    · exact .inr (.inl before)
  · exact .inr (.inr (.inl stopping))
  · rcases launches.entries _ _ entry with ⟨same, _⟩ | ⟨before, _⟩
    · exact absurd same different
    · exact .inr (.inr (.inr before))

theorem Launches.child_of_other {node port fd other : Nat}
    (launches : Launches supervisor next node port fd) (tracked : Tracked supervisor)
    (different : other ≠ node) (bound : other < supervisor.nextNode) :
    next.nodes other = supervisor.nodes other ∧
      next.children (supervisor.nodes other).pid =
        supervisor.children (supervisor.nodes other).pid := by
  constructor
  · rw [launches.nodes, Function.update_of_ne different]
  · rw [launches.children, Function.update_of_ne (Nat.ne_of_lt (tracked.pids other bound).1)]

theorem Launches.tracked {node port fd : Nat} (launches : Launches supervisor next node port fd)
    (tracked : Tracked supervisor) : Tracked next := by
  have nodes := launches.nodes
  have children := launches.children
  have here : next.nodes node = ⟨port, supervisor.nextPid, fd⟩ := by
    rw [nodes, Function.update_self]
  have away (other : Nat) (different : other ≠ node) :
      next.nodes other = supervisor.nodes other := by
    rw [nodes, Function.update_of_ne different]
  constructor
  · intro pid live
    by_cases new : pid = supervisor.nextPid
    · rw [new, children, Function.update_self] at *
      exact ⟨by rw [here], by rw [here], launches.bound⟩
    · rw [children, Function.update_of_ne new] at *
      have different := launches.dead pid live
      obtain ⟨same, ports, bound⟩ := tracked.owner pid live
      rw [away _ different]
      exact ⟨same, ports, (launches.known _ different).mpr bound⟩
  · intro other bound
    by_cases new : other = node
    · rw [new, here, launches.nextPid, children]
      simp
    · have before := (launches.known other new).mp bound
      obtain ⟨small, own⟩ := tracked.pids other before
      rw [away other new, launches.nextPid, (launches.child_of_other tracked new before).2]
      exact ⟨by omega, own⟩
  · intro other delays
    obtain ⟨before, different⟩ := launches.delayed other delays
    obtain ⟨bound, dead⟩ := tracked.delay other before
    refine ⟨(launches.known other different).mpr bound, ?_⟩
    unfold status
    rw [away other different, (launches.child_of_other tracked different bound).2]
    exact dead
  · intro other daemon watches
    rcases launches.watched other _ watches with ⟨same, own⟩ | ⟨before, different⟩
    · cases own
      rw [here]
      exact ⟨launches.bound, same.symm⟩
    · obtain ⟨bound, own⟩ := tracked.exitEntry other daemon before
      rw [away daemon different]
      exact ⟨(launches.known daemon different).mpr bound, own⟩
  · intro other stop watches
    rcases launches.watched other _ watches with ⟨_, own⟩ | ⟨before, different⟩
    · cases own
    · obtain ⟨member, own⟩ := tracked.stopEntry other stop before
      rw [launches.stops, away stop.node different]
      exact ⟨member, own⟩
  · intro stop member
    rw [launches.stops] at member
    obtain ⟨bound, ports⟩ := tracked.waiting stop member
    by_cases new : stop.node = node
    · rw [new, here]
      exact ⟨launches.bound, (launches.ports stop member new).symm⟩
    · rw [away stop.node new]
      exact ⟨(launches.known stop.node new).mpr bound, ports⟩
  · intro place other entry
    by_cases new : other = node
    · rw [new, here]
      rcases launches.entries place other entry with ⟨_, same⟩ | ⟨_, same⟩
      · exact ⟨launches.bound, same.symm⟩
      · exact ⟨launches.bound, (same new).symm⟩
    · rcases launches.entries place other entry with ⟨same, _⟩ | ⟨before, _⟩
      · exact absurd same new
      · obtain ⟨bound, ports⟩ := tracked.entries place other before
        rw [away other new]
        exact ⟨(launches.known other new).mpr bound, ports⟩
  · intro other held
    by_cases new : other = node
    · rw [new, here]
      exact launches.opened
    · rw [away other new]
      exact launches.others other new (launches.held new held)

theorem Tracked.known (tracked : Tracked supervisor) {node : Nat} (held : Held supervisor node) :
    node < supervisor.nextNode := by
  rcases held with delays | watches | ⟨stop, member, same⟩ | entry
  · exact (tracked.delay node delays).1
  · exact (tracked.exitEntry _ node watches).1
  · exact same ▸ (tracked.waiting stop member).1
  · exact (tracked.entries _ node entry).1

theorem Tracked.fd_inj (tracked : Tracked supervisor) {node other : Nat}
    (known : node < supervisor.nextNode)
    (opened : supervisor.pidfd (supervisor.nodes node).fd = some (supervisor.nodes node).pid)
    (held : Held supervisor other)
    (same : (supervisor.nodes other).fd = (supervisor.nodes node).fd) : other = node := by
  have also := tracked.opened other held
  rw [same, opened, Option.some.injEq] at also
  have first := (tracked.pids node known).2
  have second := (tracked.pids other (tracked.known held)).2
  rw [also] at first
  exact second.symm.trans first

theorem restart_cases {node fd : Nat} (taken : supervisor.restart node fd = some next) :
    supervisor.delayed node = true ∧
      Function.update supervisor.pidfd (supervisor.nodes node).fd none fd = none ∧
      next = { launch { supervisor with
          pidfd := Function.update supervisor.pidfd (supervisor.nodes node).fd none
          sc := supervisor.sc.closeFd (supervisor.nodes node).fd }
          node (supervisor.nodes node).port fd with
        delayed := Function.update supervisor.delayed node false } := by
  simp only [restart] at taken
  split at taken
  · rename_i guard
    exact ⟨guard.1, guard.2, (Option.some.inj taken).symm⟩
  · cases taken

theorem restart_launches (tracked : Tracked supervisor) {node fd : Nat}
    (taken : supervisor.restart node fd = some next) :
    Launches supervisor next node (supervisor.nodes node).port fd := by
  obtain ⟨delays, free, same⟩ := restart_cases taken
  subst next
  obtain ⟨bound, dead⟩ := tracked.delay node delays
  have opened := tracked.opened node (.inl delays)
  have childless : ∀ pid, (supervisor.children pid).status = .live →
      (supervisor.children pid).node ≠ node := by
    intro pid live same
    have present := (tracked.owner pid live).1
    rw [same] at present
    apply dead
    rw [status, present]
    exact live
  have closed (other : Nat) (entry : FdNode)
      (watches : (supervisor.sc.closeFd (supervisor.nodes node).fd).watched other =
        some entry) : supervisor.sc.watched other = some entry ∧ entry.of ≠ node := by
    obtain ⟨different, before⟩ := watched_closeFd.mp watches
    refine ⟨before, fun same => different ?_⟩
    cases entry with
    | subprocess daemon =>
        have same : daemon = node := same
        rw [← (tracked.exitEntry other daemon before).2, same]
    | coEvent stop =>
        have same : stop.node = node := same
        rw [← (tracked.stopEntry other stop before).2, same]
  refine ⟨rfl, rfl, rfl, bound, fun _ _ => Iff.rfl, childless, fun other delayed => ?_,
    fun other entry watches => ?_, rfl, fun stop member same => ?_, fun place other entry => ?_,
    ?_, fun other different held => ?_⟩
  · by_cases same : other = node
    · simp [same] at delayed
    · exact ⟨by simpa [same] using delayed, same⟩
  · rcases watched_registerNode watches with new | before
    · exact .inl new
    · exact .inr (closed other entry before)
  · rw [← same]
    exact (tracked.waiting stop member).2.symm
  · refine .inr ⟨entry, fun same => ?_⟩
    rw [← same]
    exact (tracked.entries place other entry).2.symm
  · simp [launch]
  · have apart : (supervisor.nodes other).fd ≠ (supervisor.nodes node).fd := fun same =>
      different (tracked.fd_inj bound opened held same)
    have used := tracked.opened other held
    have distinct : (supervisor.nodes other).fd ≠ fd := by
      intro same
      rw [← same, Function.update_of_ne apart, used] at free
      cases free
    simp only [launch]
    rw [Function.update_of_ne distinct, Function.update_of_ne apart]
    exact used

theorem startRun_cases {kind : DaemonKind} {fd : Nat}
    (taken : supervisor.startRun kind fd = some next) :
    supervisor.pidfd fd = none ∧
      (0 < supervisor.newPort ∧ next = (supervisor.startDaemon fd).recordStart kind
          supervisor.newPort supervisor.nextNode ∨
        supervisor.newPort = 0 ∧ next = supervisor.startDaemon fd) := by
  simp only [startRun] at taken
  split at taken
  · rename_i free
    refine ⟨free, ?_⟩
    split at taken
    · rename_i positive
      exact .inl ⟨positive, (Option.some.inj taken).symm⟩
    · rename_i zero
      exact .inr ⟨by omega, (Option.some.inj taken).symm⟩
  · cases taken

theorem startDaemon_launches (tracked : Tracked supervisor) {fd : Nat}
    (free : supervisor.pidfd fd = none) :
    Launches supervisor (supervisor.startDaemon fd) supervisor.nextNode supervisor.newPort fd := by
  refine ⟨rfl, rfl, rfl, Nat.lt_succ_self _, fun other different => ?_, fun pid live same => ?_,
    fun other delays => ⟨delays, ?_⟩, fun other entry watches => ?_, rfl,
    fun stop member same => ?_, fun place other entry => .inr ⟨entry, fun same => ?_⟩, ?_,
    fun other different held => ?_⟩
  · have step : (supervisor.startDaemon fd).nextNode = supervisor.nextNode + 1 := rfl
    omega
  · exact absurd same (Nat.ne_of_lt (tracked.owner pid live).2.2)
  · exact Nat.ne_of_lt (tracked.delay other delays).1
  · rcases watched_registerNode watches with new | before
    · exact .inl new
    · refine .inr ⟨before, ?_⟩
      cases entry with
      | subprocess daemon => exact Nat.ne_of_lt (tracked.exitEntry other daemon before).1
      | coEvent stop =>
          exact Nat.ne_of_lt (tracked.waiting stop (tracked.stopEntry other stop before).1).1
  · exact absurd same (Nat.ne_of_lt (tracked.waiting stop member).1)
  · exact absurd same (Nat.ne_of_lt (tracked.entries place other entry).1)
  · simp [startDaemon, launch]
  · have used := tracked.opened other held
    have distinct : (supervisor.nodes other).fd ≠ fd := by
      intro same
      rw [same, free] at used
      cases used
    simp only [startDaemon, launch]
    rw [Function.update_of_ne distinct]
    exact used

theorem Launches.record {node port fd : Nat} (launches : Launches supervisor next node port fd)
    (kind : DaemonKind) : Launches supervisor (next.recordStart kind port node) node port fd := by
  refine ⟨launches.nodes, launches.children, launches.nextPid, launches.bound, launches.known,
    launches.dead, launches.delayed, launches.watched, launches.stops, launches.ports,
    fun place other entry => ?_, launches.opened, launches.others⟩
  by_cases same : place = port
  · simp only [recordStart, same, Function.update_self, Option.some.injEq] at entry
    exact .inl ⟨entry.symm, same⟩
  · simp only [recordStart, Function.update_of_ne same] at entry
    exact launches.entries place other entry

theorem startRun_launches (tracked : Tracked supervisor) {kind : DaemonKind} {fd : Nat}
    (taken : supervisor.startRun kind fd = some next) :
    Launches supervisor next supervisor.nextNode supervisor.newPort fd := by
  obtain ⟨free, ⟨_, same⟩ | ⟨_, same⟩⟩ := startRun_cases taken
  · subst next
    exact (startDaemon_launches tracked free).record kind
  · subst next
    exact startDaemon_launches tracked free

theorem listPort_none {kind other : DaemonKind} {port place node : Nat}
    (listed : (supervisor.listPort kind port none).configMap other place = some node) :
    supervisor.configMap other place = some node ∧ (other = kind → place ≠ port) := by
  by_cases sameKind : other = kind
  · subst other
    by_cases samePort : place = port
    · simp [listPort, samePort] at listed
    · simp only [listPort, Function.update_self, Function.update_of_ne samePort] at listed
      exact ⟨listed, fun _ => samePort⟩
  · simp only [listPort, Function.update_of_ne sameKind] at listed
    exact ⟨listed, fun same => absurd same sameKind⟩

theorem recordStart_listed {kind other : DaemonKind} {port place node daemon : Nat}
    (listed : (supervisor.recordStart kind port node).configMap other place = some daemon) :
    other = kind ∧ place = port ∧ daemon = node ∨
      supervisor.configMap other place = some daemon := by
  by_cases sameKind : other = kind
  · subst other
    by_cases samePort : place = port
    · simp only [recordStart, listPort, Function.update_self, samePort,
        Option.some.injEq] at listed
      exact .inl ⟨rfl, samePort, listed.symm⟩
    · simp only [recordStart, listPort, Function.update_self,
        Function.update_of_ne samePort] at listed
      exact .inr listed
  · simp only [recordStart, listPort, Function.update_of_ne sameKind] at listed
    exact .inr listed

theorem destroyNode_cases {node : Nat} (taken : supervisor.destroyNode node = some next) :
    node < supervisor.nextNode ∧
      supervisor.pidfd (supervisor.nodes node).fd = some (supervisor.nodes node).pid ∧
      ¬Held supervisor node ∧
      next = { supervisor with
        pidfd := Function.update supervisor.pidfd (supervisor.nodes node).fd none
        sc := supervisor.sc.closeFd (supervisor.nodes node).fd } := by
  simp only [destroyNode] at taken
  split at taken
  · rename_i guard
    obtain ⟨known, notDelayed, notWatched, noStop, noEntry, opened⟩ := guard
    refine ⟨known, opened, ?_, (Option.some.inj taken).symm⟩
    rintro (delays | watches | ⟨stop, member, same⟩ | entry)
    · rw [notDelayed] at delays
      cases delays
    · exact notWatched (fdToNode_of_watched watches)
    · exact noStop stop member same
    · exact noEntry entry
  · cases taken

theorem destroyNode_tracked (tracked : Tracked supervisor) {node : Nat}
    (taken : supervisor.destroyNode node = some next) : Tracked next := by
  obtain ⟨known, opened, released, same⟩ := destroyNode_cases taken
  subst next
  refine ⟨tracked.owner, tracked.pids, tracked.delay, fun fd other watches => ?_,
    fun fd stop watches => ?_, tracked.waiting, tracked.entries, fun other held => ?_⟩
  · exact tracked.exitEntry fd other (watched_closeFd.mp watches).2
  · exact tracked.stopEntry fd stop (watched_closeFd.mp watches).2
  · have before : Held supervisor other := by
      rcases held with delays | watches | rest
      · exact .inl delays
      · exact .inr (.inl (watched_closeFd.mp watches).2)
      · exact .inr (.inr rest)
    have distinct : (supervisor.nodes other).fd ≠ (supervisor.nodes node).fd := by
      intro same
      have collides := tracked.fd_inj known opened before same
      exact released (collides ▸ before)
    change Function.update supervisor.pidfd (supervisor.nodes node).fd none _ = _
    rw [Function.update_of_ne distinct]
    exact tracked.opened other before

theorem step_tracked {label : SupervisorLabel} (tracked : Tracked supervisor)
    (taken : step supervisor label = some next) : Tracked next := by
  cases label with
  | startDevice fd | startSm fd => exact (startRun_launches tracked taken).tracked tracked
  | stopDevice port | stopSm port =>
      simp only [step, Option.some.injEq] at taken
      subst next
      exact stopRun_tracked tracked _ port
  | childExit pid ok => exact (childExit_shrinks tracked taken).tracked tracked
  | handleEvent fd garbage =>
      rcases handleEvent_cases tracked taken with ⟨node, watches, dead, same⟩ |
        ⟨stop, watches, dead, same⟩
      · subst next
        exact subprocessEvent_tracked tracked garbage watches dead
      · subst next
        exact (coEvent_shrinks tracked watches).tracked tracked
  | restart node fd => exact (restart_launches tracked taken).tracked tracked
  | destroyNode node => exact destroyNode_tracked tracked taken

theorem reachable_tracked (reached : Reachable step start supervisor) : Tracked supervisor :=
  invariant_of_reachable start_tracked (fun _ _ _ tracked taken => step_tracked tracked taken)
    reached

end Supervisor

end AutoDrop
