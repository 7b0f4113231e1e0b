import AutoDrop.SupervisorTracking

/-!
The ports of the live children and the entries of `m_subprocess_map`. Allocation looks
at the ports that are listed, but an earlier start may be over later than its listing: it
may still be stopping, or about to restart its child.
-/

namespace AutoDrop.Supervisor

open LabelledRun EventSc

structure Bookkeeping (supervisor : Supervisor) : Prop where
  distinct : ∀ pid other, (supervisor.children pid).status = .live →
    (supervisor.children other).status = .live →
    (supervisor.children pid).port = (supervisor.children other).port → pid = other
  entries : ∀ kind port node, supervisor.configMap kind port = some node →
    supervisor.subprocessMap port = some node

/-- A start finds a free port, and the earlier starts on that port are finished. -/
def PortFinished (supervisor : Supervisor) : SupervisorLabel → Prop
  | .startDevice _ | .startSm _ =>
      supervisor.allocPort ≠ none ∧ ∀ node < supervisor.nextNode,
        (supervisor.nodes node).port = supervisor.newPort → Finished supervisor node
  | _ => True

instance : ∀ supervisor label, Decidable (PortFinished supervisor label)
  | _, .startDevice _ | _, .startSm _ => inferInstanceAs (Decidable (_ ∧ _))
  | _, .stopDevice _ | _, .stopSm _ | _, .childExit _ _ | _, .handleEvent _ _ | _, .restart _ _
  | _, .destroyNode _ => inferInstanceAs (Decidable True)

def Claims (supervisor : Supervisor) (node : Nat) : Prop :=
  node < supervisor.nextNode ∧ (Finished supervisor node →
    ∃ kind, supervisor.configMap kind (supervisor.nodes node).port = some node)

structure Booked (supervisor : Supervisor) : Prop where
  tracked : Tracked supervisor
  single : ∀ node other, Claims supervisor node → Claims supervisor other →
    (supervisor.nodes node).port = (supervisor.nodes other).port → node = other
  absent : ∀ stop ∈ supervisor.stops, ∀ kind, supervisor.configMap kind stop.port = none
  entries : ∀ kind port node, supervisor.configMap kind port = some node →
    supervisor.subprocessMap port = some node
  oneMap : ∀ kind other port node third, supervisor.configMap kind port = some node →
    supervisor.configMap other port = some third → kind = other

variable {supervisor next : Supervisor} {node : Nat}

theorem start_booked : Booked start := by
  refine ⟨start_tracked, ?_, ?_, ?_, ?_⟩
  · rintro node other ⟨bound, _⟩ _ _
    cases bound
  · intro stop member
    cases member
  · intro kind port node listed
    cases listed
  · intro kind other port node third listed
    cases listed

theorem claims_of_live (tracked : Tracked supervisor) {pid : Nat}
    (live : (supervisor.children pid).status = .live) :
    Claims supervisor (supervisor.children pid).node := by
  obtain ⟨present, _, bound⟩ := tracked.owner pid live
  refine ⟨bound, fun finished => absurd ?_ finished.1⟩
  rw [status, present]
  exact live

theorem Booked.bookkeeping (booked : Booked supervisor) : Bookkeeping supervisor := by
  refine ⟨fun pid other left right same => ?_, booked.entries⟩
  obtain ⟨first, firstPort, _⟩ := booked.tracked.owner pid left
  obtain ⟨second, secondPort, _⟩ := booked.tracked.owner other right
  have nodes := booked.single _ _ (claims_of_live booked.tracked left)
    (claims_of_live booked.tracked right) (by rw [firstPort, secondPort, same])
  rw [← first, ← second, nodes]

theorem Finished.mono (finished : Finished supervisor node)
    (status : next.status node = .live → supervisor.status node = .live)
    (delayed : next.delayed node = true → supervisor.delayed node = true)
    (watched : next.sc.watched (next.nodes node).fd = some (.subprocess node) →
      supervisor.sc.watched (supervisor.nodes node).fd = some (.subprocess node))
    (stops : ∀ stop ∈ next.stops, stop.node = node → stop ∈ supervisor.stops) :
    Finished next node := by
  obtain ⟨dead, idle, unwatched, unstopped⟩ := finished
  refine ⟨fun live => dead (status live), ?_, fun watches => unwatched (watched watches),
    fun stop member same => unstopped stop (stops stop member same) same⟩
  by_contra delays
  have before := delayed (by simpa using delays)
  rw [idle] at before
  cases before

theorem Booked.fewer (booked : Booked supervisor) (tracked : Tracked next)
    (ports : ∀ other, (next.nodes other).port = (supervisor.nodes other).port)
    (nextNode : next.nextNode = supervisor.nextNode)
    (finished : ∀ other, other < supervisor.nextNode → Finished supervisor other →
      Finished next other ∨ Claims supervisor other)
    (listed : ∀ kind port other, next.configMap kind port = some other →
      supervisor.configMap kind port = some other ∧ next.subprocessMap port = some other)
    (absent : ∀ stop ∈ next.stops, ∀ kind, next.configMap kind stop.port = none) :
    Booked next := by
  have claims (other : Nat) (claim : Claims next other) : Claims supervisor other := by
    obtain ⟨bound, listing⟩ := claim
    rw [nextNode] at bound
    refine ⟨bound, fun before => ?_⟩
    rcases finished other bound before with after | claim
    · obtain ⟨kind, entry⟩ := listing after
      rw [ports] at entry
      exact ⟨kind, (listed kind _ other entry).1⟩
    · exact claim.2 before
  refine ⟨tracked, fun first second left right same => ?_, absent, ?_, ?_⟩
  · rw [ports, ports] at same
    exact booked.single first second (claims first left) (claims second right) same
  · intro kind port other entry
    exact (listed kind port other entry).2
  · intro kind other port first second left right
    exact booked.oneMap kind other port first second (listed kind port first left).1
      (listed other port second right).1

theorem Shrinks.finished (shrinks : Shrinks supervisor next)
    (finished : Finished supervisor node) : Finished next node := by
  have nodes := shrinks.nodes
  refine finished.mono (fun live => ?_) (shrinks.delayed node) (fun watches => ?_)
    (fun stop member _ => shrinks.stops stop member)
  · unfold status at live ⊢
    rw [nodes] at live
    exact (shrinks.child _).2.2 live
  · rw [nodes] at watches
    exact shrinks.watched _ _ watches

theorem childExit_booked (booked : Booked supervisor) {pid : Nat} {ok : Bool}
    (taken : supervisor.childExit pid ok = some next) : Booked next := by
  have shrinks := childExit_shrinks booked.tracked taken
  have same := childExit_eq taken
  subst next
  exact booked.fewer (shrinks.tracked booked.tracked) (fun _ => rfl) rfl
    (fun _ _ before => .inl (shrinks.finished before))
    (fun kind port other entry => ⟨entry, booked.entries kind port other entry⟩) booked.absent

/-- The entry that the returning call erases is not that of a port that is listed. -/
theorem coEvent_booked (booked : Booked supervisor) {fd : Nat} {stop : StopCall}
    (watches : supervisor.sc.watched fd = some (.coEvent stop)) :
    Booked (supervisor.coEvent fd stop) := by
  have shrinks := coEvent_shrinks booked.tracked watches
  have member := (booked.tracked.stopEntry fd stop watches).1
  refine booked.fewer (shrinks.tracked booked.tracked) (fun _ => rfl) rfl
    (fun _ _ before => .inl (shrinks.finished before)) (fun kind port other entry => ⟨entry, ?_⟩)
    (fun other later => booked.absent other (List.mem_of_mem_erase later))
  have listed := booked.entries kind port other entry
  by_cases same : port = stop.port
  · have unlisted := booked.absent stop member kind
    rw [← same] at unlisted
    have impossible := entry.symm.trans unlisted
    cases impossible
  · simpa [coEvent, same] using listed

theorem subprocessEvent_booked (booked : Booked supervisor) {fd daemon : Nat} (garbage : Bool)
    (watches : supervisor.sc.watched fd = some (.subprocess daemon))
    (dead : supervisor.status daemon ≠ .live) :
    Booked (supervisor.subprocessEvent daemon garbage) := by
  have tracked := subprocessEvent_tracked booked.tracked garbage watches dead
  refine booked.fewer tracked (fun _ => rfl) rfl (fun other _ before => .inl ?_)
    (fun kind port other entry => ⟨entry, booked.entries kind port other entry⟩) booked.absent
  refine before.mono (fun live => ?_) (fun delays => ?_) (fun watched => ?_)
    (fun _ member _ => member)
  · exact (reap_child supervisor.children _ _).2.2 live
  · have different : other ≠ daemon := by
      rintro rfl
      apply before.2.2.1
      rw [(booked.tracked.exitEntry fd other watches).2]
      exact watches
    simp only [subprocessEvent] at delays
    split at delays
    · exact delays
    · rwa [Function.update_of_ne different] at delays
  · exact (watched_unregisterNode.mp watched).2

theorem destroyNode_booked (booked : Booked supervisor) {daemon : Nat}
    (taken : supervisor.destroyNode daemon = some next) : Booked next := by
  have tracked := destroyNode_tracked booked.tracked taken
  obtain ⟨_, _, _, same⟩ := destroyNode_cases taken
  subst next
  refine booked.fewer tracked (fun _ => rfl) rfl (fun other _ before => .inl ?_)
    (fun kind port other entry => ⟨entry, booked.entries kind port other entry⟩) booked.absent
  exact before.mono (fun live => live) (fun delays => delays)
    (fun watched => (watched_closeFd.mp watched).2) (fun _ member _ => member)

theorem Launches.finished {daemon port fd : Nat}
    (launches : Launches supervisor next daemon port fd) (tracked : Tracked supervisor)
    (different : node ≠ daemon) (bound : node < supervisor.nextNode)
    (finished : Finished supervisor node) : Finished next node := by
  obtain ⟨nodes, child⟩ := launches.child_of_other tracked different bound
  refine finished.mono (fun live => ?_) (fun delayed => ?_) (fun watches => ?_)
    (fun stop member _ => ?_)
  · unfold status at live ⊢
    rw [nodes, child] at live
    exact live
  · exact (launches.delayed node delayed).1
  · rw [nodes] at watches
    rcases launches.watched _ _ watches with ⟨_, own⟩ | ⟨earlier, _⟩
    · cases own
      exact absurd rfl different
    · exact earlier
  · rw [launches.stops] at member
    exact member

theorem restart_booked (booked : Booked supervisor) {daemon fd : Nat}
    (taken : supervisor.restart daemon fd = some next) : Booked next := by
  have launches := restart_launches booked.tracked taken
  have tracked := launches.tracked booked.tracked
  obtain ⟨delays, _, same⟩ := restart_cases taken
  subst next
  refine booked.fewer tracked (fun other => ?_) rfl (fun other bound before => .inl ?_)
    (fun kind port other entry => ⟨entry, booked.entries kind port other entry⟩) booked.absent
  · by_cases same : other = daemon
    · simp [launch, same]
    · simp [launch, same]
  · have different : other ≠ daemon := by
      rintro rfl
      rw [before.2.1] at delays
      cases delays
    exact launches.finished booked.tracked different bound before

theorem stopRun_booked (booked : Booked supervisor) (kind : DaemonKind) (port : Nat) :
    Booked (supervisor.stopRun kind port) := by
  have tracked := stopRun_tracked booked.tracked kind port
  unfold stopRun at tracked ⊢
  split at tracked
  · exact ⟨tracked, booked.single, booked.absent, booked.entries, booked.oneMap⟩
  · rename_i started listed
    have entry : (supervisor.listPort kind port none).subprocessMap port = some started :=
      booked.entries kind port started listed
    obtain ⟨_, ports⟩ := booked.tracked.entries port started entry
    simp only [waitStopDaemon, entry] at tracked ⊢
    refine booked.fewer tracked (fun _ => rfl) rfl (fun other bound before => ?_)
      (fun which place other later => ?_) (fun stop member which => ?_)
    · by_cases same : other = started
      · exact .inr ⟨bound, fun _ => ⟨kind, by rw [same, ports]; exact listed⟩⟩
      · refine .inl (before.mono (fun live => live) (fun delays => delays) (fun watches => ?_)
          (fun stop member own => ?_))
        · rcases watched_registerNode watches with ⟨_, impossible⟩ | earlier
          · cases impossible
          · exact (watched_unregisterNode.mp earlier).2
        · rcases List.mem_cons.mp member with new | earlier
          · rw [new] at own
            exact absurd own.symm same
          · exact earlier
    · have earlier := (listPort_none later).1
      exact ⟨earlier, booked.entries which place other earlier⟩
    · cases still : (supervisor.listPort kind port none).configMap which stop.port with
      | none => rfl
      | some other =>
          obtain ⟨earlier, apart⟩ := listPort_none still
          rcases List.mem_cons.mp member with new | before
          · rw [new] at earlier apart
            exact absurd rfl (apart (booked.oneMap which kind port other started earlier listed))
          · rw [booked.absent stop before which] at earlier
            cases earlier

theorem allocPort_spec {port : Nat} (found : supervisor.allocPort = some port) :
    0 < port ∧ ∀ kind, supervisor.configMap kind port = none := by
  have free := List.find?_some found
  have range := List.mem_range'_1.mp (List.mem_of_find?_eq_some found)
  simp only [Bool.and_eq_true, Option.isNone_iff_eq_none] at free
  refine ⟨?_, fun kind => ?_⟩
  · have least : minPort = 50110 := rfl
    omega
  · cases kind with
    | device => exact free.1
    | sm => exact free.2

theorem recordStart_booked (booked : Booked supervisor) {kind : DaemonKind} {port fd : Nat}
    (launches : Launches supervisor
      ((supervisor.startDaemon fd).recordStart kind port supervisor.nextNode)
      supervisor.nextNode port fd)
    (free : ∀ kind, supervisor.configMap kind port = none)
    (ended : ∀ other < supervisor.nextNode,
      (supervisor.nodes other).port = port → Finished supervisor other) :
    Booked ((supervisor.startDaemon fd).recordStart kind port supervisor.nextNode) := by
  have tracked := launches.tracked booked.tracked
  generalize same : (supervisor.startDaemon fd).recordStart kind port supervisor.nextNode = next
    at launches tracked
  have listed (which : DaemonKind) (place other : Nat)
      (entry : next.configMap which place = some other) :
      which = kind ∧ place = port ∧ other = supervisor.nextNode ∨
        supervisor.configMap which place = some other ∧ place ≠ port := by
    rw [← same] at entry
    rcases recordStart_listed entry with new | before
    · exact .inl new
    · have before : supervisor.configMap which place = some other := before
      refine .inr ⟨before, ?_⟩
      rintro rfl
      rw [free which] at before
      cases before
  have claims (other : Nat) (claim : Claims next other) (old : other ≠ supervisor.nextNode) :
      Claims supervisor other ∧ (next.nodes other).port = (supervisor.nodes other).port := by
    obtain ⟨bound, listing⟩ := claim
    have known := (launches.known other old).mp bound
    have nodes := (launches.child_of_other booked.tracked old known).1
    refine ⟨⟨known, fun before => ?_⟩, by rw [nodes]⟩
    obtain ⟨which, entry⟩ := listing (launches.finished booked.tracked old known before)
    rw [nodes] at entry
    rcases listed which _ other entry with ⟨_, _, new⟩ | ⟨earlier, _⟩
    · exact absurd new old
    · exact ⟨which, earlier⟩
  have sole (other : Nat) (claim : Claims next other) (ports : (next.nodes other).port = port) :
      other = supervisor.nextNode := by
    by_contra old
    obtain ⟨⟨bound, listing⟩, unchanged⟩ := claims other claim old
    rw [unchanged] at ports
    obtain ⟨which, entry⟩ := listing (ended other bound ports)
    rw [ports, free which] at entry
    cases entry
  have here : (next.nodes supervisor.nextNode).port = port := by
    rw [launches.nodes, Function.update_self]
  refine ⟨tracked, fun first second left right ports => ?_, fun stop member which => ?_,
    fun which place other entry => ?_, fun which third place first second left right => ?_⟩
  · by_cases firstNew : first = supervisor.nextNode
    · rw [firstNew, here] at ports
      rw [firstNew, sole second right ports.symm]
    · by_cases secondNew : second = supervisor.nextNode
      · rw [secondNew, here] at ports
        exact absurd (sole first left ports) firstNew
      · obtain ⟨firstClaim, firstPort⟩ := claims first left firstNew
        obtain ⟨secondClaim, secondPort⟩ := claims second right secondNew
        rw [firstPort, secondPort] at ports
        exact booked.single first second firstClaim secondClaim ports
  · rw [launches.stops] at member
    obtain ⟨bound, ports⟩ := booked.tracked.waiting stop member
    cases still : next.configMap which stop.port with
    | none => rfl
    | some other =>
        rcases listed which stop.port other still with ⟨_, samePort, _⟩ | ⟨before, _⟩
        · exact absurd rfl ((ended stop.node bound (ports.trans samePort)).2.2.2 stop member)
        · rw [booked.absent stop member which] at before
          cases before
  · rw [← same]
    rcases listed which place other entry with ⟨_, samePort, new⟩ | ⟨before, apart⟩
    · rw [samePort, new]
      simp [recordStart]
    · simp only [recordStart, Function.update_of_ne apart]
      exact booked.entries which place other before
  · rcases listed which place first left with ⟨leftKind, samePort, _⟩ | ⟨leftBefore, apart⟩
    · rcases listed third place second right with ⟨rightKind, _, _⟩ | ⟨_, apart⟩
      · rw [leftKind, rightKind]
      · exact absurd samePort apart
    · rcases listed third place second right with ⟨_, samePort, _⟩ | ⟨rightBefore, _⟩
      · exact absurd samePort apart
      · exact booked.oneMap which third place first second leftBefore rightBefore

theorem startRun_booked (booked : Booked supervisor) {kind : DaemonKind} {fd : Nat}
    (available : supervisor.allocPort ≠ none)
    (ended : ∀ other < supervisor.nextNode,
      (supervisor.nodes other).port = supervisor.newPort → Finished supervisor other)
    (taken : supervisor.startRun kind fd = some next) : Booked next := by
  have launches := startRun_launches booked.tracked taken
  obtain ⟨port, found⟩ := Option.ne_none_iff_exists'.mp available
  obtain ⟨positive, free⟩ := allocPort_spec found
  have newPort : supervisor.newPort = port := by
    rw [Supervisor.newPort, found]
    rfl
  rw [newPort] at launches ended
  obtain ⟨_, ⟨_, same⟩ | ⟨zero, _⟩⟩ := startRun_cases taken
  · rw [newPort] at same
    subst next
    exact recordStart_booked booked launches free ended
  · omega

theorem step_booked {label : SupervisorLabel} (booked : Booked supervisor)
    (portFinished : PortFinished supervisor label)
    (taken : step supervisor label = some next) : Booked next := by
  cases label with
  | startDevice fd | startSm fd =>
      exact startRun_booked booked portFinished.1 portFinished.2 taken
  | stopDevice port | stopSm port =>
      simp only [step, Option.some.injEq] at taken
      subst next
      exact stopRun_booked booked _ port
  | childExit pid ok => exact childExit_booked booked taken
  | handleEvent fd garbage =>
      rcases handleEvent_cases booked.tracked taken with ⟨daemon, watches, dead, same⟩ |
        ⟨stop, watches, _, same⟩
      · subst next
        exact subprocessEvent_booked booked garbage watches dead
      · subst next
        exact coEvent_booked booked watches
  | restart daemon fd => exact restart_booked booked taken
  | destroyNode daemon => exact destroyNode_booked booked taken

/-- As long as a start finds a free port whose earlier starts are finished, no two live
children have one port, and every listed port has the entry of its own start. -/
theorem always_bookkeeping (labels : List SupervisorLabel)
    (fresh : Meets step PortFinished start labels) : Always step Bookkeeping start labels :=
  (always_of_meets (fun _ _ _ booked portFinished taken => step_booked booked portFinished taken)
    start_booked fresh).mono fun _ booked => booked.bookkeeping

def reused : List SupervisorLabel :=
  [.startDevice 5, .startSm 6, .childExit 0 false, .handleEvent 5 false, .restart 0 5,
    .stopDevice 50110, .childExit 2 true, .handleEvent 5 false, .startDevice 7]

theorem always_bookkeeping_reused :
    ∃ final, exec step start reused = some final ∧ Always step Bookkeeping start reused :=
  ⟨_, rfl, always_bookkeeping reused (by decide)⟩

/-- A start during a stop gets the port of the stop: two children with one port are alive, and
the stop erases the entry of the new one when it returns. -/
theorem start_during_stop :
    ∃ both erased,
      exec step start [.startDevice 5, .stopDevice 50110, .startDevice 6] = some both ∧
      (both.children 0).status = .live ∧ (both.children 1).status = .live ∧
      (both.children 0).port = (both.children 1).port ∧
      exec step both [.childExit 0 true, .handleEvent 5 false] = some erased ∧
      erased.configMap .device 50110 = some 1 ∧ erased.subprocessMap 50110 = none :=
  ⟨_, _, rfl, by decide, by decide, by decide, rfl, by decide, by decide⟩

end AutoDrop.Supervisor
