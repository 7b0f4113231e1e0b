import AutoDrop.SupervisorTracking

/-!
What a stop leaves behind. It takes the node out of the registry before it waits, so the
exit it waits for restarts nothing; but it cannot take back a restart whose delay runs, and
a second stop returns at once while the first one still waits.
-/

namespace AutoDrop.Supervisor

open LabelledRun EventSc

def StopFinal (supervisor : Supervisor) : Prop :=
  ∀ node, supervisor.stopped node = true → ∀ pid,
    (supervisor.children pid).status = .live → (supervisor.children pid).node ≠ node

/-- The node that the port is listed with is finished, or it has its entry, for the stop to
wait for, and is not in its restart delay; where the port is not listed, no child of its last
start lives. -/
def StopsInTime (supervisor : Supervisor) (kind : DaemonKind) (port : Nat) : Prop :=
  (∀ started ∈ supervisor.configMap kind port, Finished supervisor started ∨
    supervisor.subprocessMap port = some started ∧ supervisor.delayed started = false) ∧
  (supervisor.configMap kind port = none →
    ∀ started ∈ supervisor.lastStart kind port, supervisor.status started ≠ .live)

instance (supervisor : Supervisor) (kind : DaemonKind) (port : Nat) :
    Decidable (StopsInTime supervisor kind port) :=
  inferInstanceAs (Decidable ((∀ _ ∈ _, _) ∧ (_ → ∀ _ ∈ _, _)))

def InTime (supervisor : Supervisor) : SupervisorLabel → Prop
  | .stopDevice port => supervisor.StopsInTime .device port
  | .stopSm port => supervisor.StopsInTime .sm port
  | _ => True

instance : ∀ supervisor label, Decidable (InTime supervisor label)
  | supervisor, .stopDevice port => inferInstanceAs (Decidable (supervisor.StopsInTime _ port))
  | supervisor, .stopSm port => inferInstanceAs (Decidable (supervisor.StopsInTime _ port))
  | _, .startDevice _ | _, .startSm _ | _, .childExit _ _ | _, .handleEvent _ _ | _, .restart _ _
  | _, .destroyNode _ => inferInstanceAs (Decidable True)

/-- A call to stop the start of the node has returned or waits. -/
def Stopping (supervisor : Supervisor) (node : Nat) : Prop :=
  supervisor.stopped node = true ∨ ∃ stop ∈ supervisor.stops, stop.started = node

structure Settled (supervisor : Supervisor) : Prop where
  tracked : Tracked supervisor
  known : ∀ node, Stopping supervisor node → node < supervisor.nextNode
  noDelay : ∀ node, Stopping supervisor node → supervisor.delayed node = false
  noEntry : ∀ node, Stopping supervisor node → ∀ fd,
    supervisor.sc.watched fd ≠ some (.subprocess node)
  childless : ∀ node, supervisor.stopped node = true → supervisor.status node ≠ .live
  waits : ∀ stop ∈ supervisor.stops,
    stop.started = stop.node ∨ supervisor.status stop.started ≠ .live
  listed : ∀ kind port node, supervisor.configMap kind port = some node →
    node < supervisor.nextNode

/-- The last start of a kind on a port is listed as long as nothing stops it. -/
def Recorded (supervisor : Supervisor) : Prop :=
  ∀ kind port node, supervisor.lastStart kind port = some node →
    supervisor.configMap kind port = some node ∨ Stopping supervisor node

variable {supervisor next : Supervisor} {node : Nat}

theorem start_settled : Settled start := by
  have none (node : Nat) : ¬Stopping start node := by
    rintro (stopped | ⟨stop, member, _⟩)
    · cases stopped
    · cases member
  refine ⟨start_tracked, fun node stopping => absurd stopping (none node),
    fun node stopping => absurd stopping (none node),
    fun node stopping => absurd stopping (none node), ?_, ?_, ?_⟩
  · intro node stopped
    cases stopped
  · intro stop member
    cases member
  · intro kind port node listed
    cases listed

theorem Settled.stopFinal (settled : Settled supervisor) : StopFinal supervisor := by
  intro node stopped pid live same
  apply settled.childless node stopped
  have present := (settled.tracked.owner pid live).1
  rw [same] at present
  rw [status, present]
  exact live

def Quiet (supervisor : Supervisor) (node : Nat) : Prop :=
  node < supervisor.nextNode ∧ supervisor.delayed node = false ∧
    ∀ fd, supervisor.sc.watched fd ≠ some (.subprocess node)

/-- A step that wakes no start that is being stopped, and stops none that is not quiet. -/
theorem Settled.keeps (settled : Settled supervisor) (tracked : Tracked next)
    (nextNode : supervisor.nextNode ≤ next.nextNode)
    (stopping : ∀ other, Stopping next other → Stopping supervisor other ∨ Quiet next other)
    (stops : ∀ stop ∈ next.stops, stop ∈ supervisor.stops ∨ stop.started = stop.node ∨
      next.status stop.started ≠ .live)
    (stopped : ∀ other, next.stopped other = true →
      supervisor.stopped other = true ∨ next.status other ≠ .live)
    (status : ∀ other, Stopping supervisor other → next.status other = .live →
      supervisor.status other = .live)
    (delayed : ∀ other, Stopping supervisor other → next.delayed other = true →
      supervisor.delayed other = true)
    (watched : ∀ other fd, Stopping supervisor other →
      next.sc.watched fd = some (.subprocess other) →
      supervisor.sc.watched fd = some (.subprocess other))
    (listed : ∀ kind port other, next.configMap kind port = some other →
      supervisor.configMap kind port = some other ∨ other < next.nextNode) : Settled next := by
  have quiet (other : Nat) (now : Stopping next other) : Quiet next other := by
    rcases stopping other now with before | quiet
    · refine ⟨Nat.lt_of_lt_of_le (settled.known other before) nextNode, ?_, fun fd watches => ?_⟩
      · by_contra delays
        have earlier := delayed other before (by simpa using delays)
        rw [settled.noDelay other before] at earlier
        cases earlier
      · exact settled.noEntry other before fd (watched other fd before watches)
    · exact quiet
  refine ⟨tracked, fun other now => (quiet other now).1, fun other now => (quiet other now).2.1,
    fun other now => (quiet other now).2.2, fun other ended => ?_, fun stop member => ?_,
    fun kind port other entry => ?_⟩
  · rcases stopped other ended with earlier | dead
    · exact fun live => settled.childless other earlier (status other (.inl earlier) live)
    · exact dead
  · rcases stops stop member with before | new
    · rcases settled.waits stop before with same | dead
      · exact .inl same
      · exact .inr fun live => dead (status stop.started (.inr ⟨stop, before, rfl⟩) live)
    · exact new
  · rcases listed kind port other entry with before | new
    · exact Nat.lt_of_lt_of_le (settled.listed kind port other before) nextNode
    · exact new

theorem Shrinks.status (shrinks : Shrinks supervisor next) (live : next.status node = .live) :
    supervisor.status node = .live := by
  unfold Supervisor.status at live ⊢
  rw [shrinks.nodes] at live
  exact (shrinks.child _).2.2 live

theorem childExit_settled (settled : Settled supervisor) {pid : Nat} {ok : Bool}
    (taken : supervisor.childExit pid ok = some next) : Settled next := by
  have shrinks := childExit_shrinks settled.tracked taken
  have same := childExit_eq taken
  subst next
  exact settled.keeps (shrinks.tracked settled.tracked) (Nat.le_refl _) (fun _ now => .inl now)
    (fun _ member => .inl member) (fun _ ended => .inl ended) (fun _ _ live => shrinks.status live)
    (fun _ _ delays => delays) (fun _ _ _ watches => watches) (fun _ _ _ entry => .inl entry)

theorem coEvent_settled (settled : Settled supervisor) {fd : Nat} {stop : StopCall}
    (watches : supervisor.sc.watched fd = some (.coEvent stop))
    (dead : supervisor.status stop.node ≠ .live) : Settled (supervisor.coEvent fd stop) := by
  have shrinks := coEvent_shrinks settled.tracked watches
  have member := (settled.tracked.stopEntry fd stop watches).1
  have returned (other : Nat) (ended : (supervisor.coEvent fd stop).stopped other = true) :
      supervisor.stopped other = true ∨ other = stop.started := by
    by_cases same : other = stop.started
    · exact .inr same
    · simp only [coEvent, Function.update_of_ne same] at ended
      exact .inl ended
  refine settled.keeps (shrinks.tracked settled.tracked) (Nat.le_refl _)
    (fun other now => .inl ?_) (fun _ waiting => .inl (List.mem_of_mem_erase waiting))
    (fun other ended => ?_)
    (fun _ _ live => shrinks.status live) (fun _ _ delays => delays)
    (fun _ _ _ watched => shrinks.watched _ _ watched) (fun _ _ _ entry => .inl entry)
  · rcases now with ended | ⟨call, waiting, same⟩
    · rcases returned other ended with before | new
      · exact .inl before
      · exact .inr ⟨stop, member, new.symm⟩
    · exact .inr ⟨call, List.mem_of_mem_erase waiting, same⟩
  · rcases returned other ended with before | new
    · exact .inl before
    · rw [new]
      refine .inr fun live => ?_
      have alive := shrinks.status live
      rcases settled.waits stop member with same | childless
      · exact dead (same ▸ alive)
      · exact childless alive

theorem subprocessEvent_settled (settled : Settled supervisor) {fd daemon : Nat}
    (garbage : Bool) (watches : supervisor.sc.watched fd = some (.subprocess daemon))
    (dead : supervisor.status daemon ≠ .live) :
    Settled (supervisor.subprocessEvent daemon garbage) := by
  have tracked := subprocessEvent_tracked settled.tracked garbage watches dead
  refine settled.keeps tracked (Nat.le_refl _) (fun _ now => .inl now)
    (fun _ member => .inl member) (fun _ ended => .inl ended) (fun other _ live => ?_)
    (fun other now delays => ?_) (fun _ _ _ watched => (watched_unregisterNode.mp watched).2)
    (fun _ _ _ entry => .inl entry)
  · exact (reap_child supervisor.children _ _).2.2 live
  · have different : other ≠ daemon := by
      rintro rfl
      exact settled.noEntry other now fd watches
    simp only [subprocessEvent] at delays
    split at delays
    · exact delays
    · rwa [Function.update_of_ne different] at delays

theorem destroyNode_settled (settled : Settled supervisor) {daemon : Nat}
    (taken : supervisor.destroyNode daemon = some next) : Settled next := by
  have tracked := destroyNode_tracked settled.tracked taken
  obtain ⟨_, _, _, same⟩ := destroyNode_cases taken
  subst next
  exact settled.keeps tracked (Nat.le_refl _) (fun _ now => .inl now)
    (fun _ member => .inl member) (fun _ ended => .inl ended) (fun _ _ live => live)
    (fun _ _ delays => delays) (fun _ _ _ watched => (watched_closeFd.mp watched).2)
    (fun _ _ _ entry => .inl entry)

theorem Launches.settled {daemon port fd : Nat}
    (launches : Launches supervisor next daemon port fd) (settled : Settled supervisor)
    (nextNode : supervisor.nextNode ≤ next.nextNode) (stopped : next.stopped = supervisor.stopped)
    (untouched : ¬Stopping supervisor daemon)
    (listed : ∀ kind port other, next.configMap kind port = some other →
      supervisor.configMap kind port = some other ∨ other < next.nextNode) : Settled next := by
  have apart (other : Nat) (now : Stopping supervisor other) : other ≠ daemon := by
    rintro rfl
    exact untouched now
  refine settled.keeps (launches.tracked settled.tracked) nextNode (fun other now => .inl ?_)
    (fun stop member => .inl (launches.stops ▸ member)) (fun other ended => .inl (stopped ▸ ended))
    (fun other now live => ?_) (fun other _ delays => (launches.delayed other delays).1)
    (fun other fd now watches => ?_) listed
  · unfold Stopping at now ⊢
    rw [stopped, launches.stops] at now
    exact now
  · obtain ⟨nodes, child⟩ := launches.child_of_other settled.tracked (apart other now)
      (settled.known other now)
    unfold status at live ⊢
    rw [nodes, child] at live
    exact live
  · rcases launches.watched fd _ watches with ⟨_, own⟩ | ⟨before, _⟩
    · rw [FdNode.subprocess.injEq] at own
      exact absurd own (apart other now)
    · exact before

theorem restart_settled (settled : Settled supervisor) {daemon fd : Nat}
    (taken : supervisor.restart daemon fd = some next) : Settled next := by
  have launches := restart_launches settled.tracked taken
  obtain ⟨delays, _, same⟩ := restart_cases taken
  subst next
  refine launches.settled settled (Nat.le_refl _) rfl (fun stopping => ?_)
    (fun _ _ _ entry => .inl entry)
  rw [settled.noDelay daemon stopping] at delays
  cases delays

theorem startRun_settled (settled : Settled supervisor) {kind : DaemonKind} {fd : Nat}
    (taken : supervisor.startRun kind fd = some next) : Settled next := by
  have launches := startRun_launches settled.tracked taken
  have untouched : ¬Stopping supervisor supervisor.nextNode := fun stopping =>
    Nat.lt_irrefl _ (settled.known supervisor.nextNode stopping)
  obtain ⟨_, ⟨_, same⟩ | ⟨_, same⟩⟩ := startRun_cases taken
  · subst next
    refine launches.settled settled (Nat.le_succ _) rfl untouched
      (fun which place other entry => ?_)
    rcases recordStart_listed entry with ⟨_, _, new⟩ | before
    · rw [new]
      exact .inr (Nat.lt_succ_self _)
    · exact .inl before
  · subst next
    exact launches.settled settled (Nat.le_succ _) rfl untouched (fun _ _ _ entry => .inl entry)

theorem listPort_settled (settled : Settled supervisor) (kind : DaemonKind) (port : Nat) :
    Settled (supervisor.listPort kind port none) :=
  settled.keeps (listPort_tracked settled.tracked kind port none) (Nat.le_refl _)
    (fun _ now => .inl now) (fun _ member => .inl member) (fun _ ended => .inl ended)
    (fun _ _ live => live) (fun _ _ delays => delays) (fun _ _ _ watches => watches)
    (fun _ _ _ entry => .inl (listPort_none entry).1)

/-- The call either waits for the node of its start, which is out of the registry by then, or
finds nothing that is left to stop. -/
theorem waitStopDaemon_settled (settled : Settled supervisor) {port started : Nat}
    (known : started < supervisor.nextNode)
    (inTime : Finished supervisor started ∨
      supervisor.subprocessMap port = some started ∧ supervisor.delayed started = false) :
    Settled (supervisor.waitStopDaemon port started) := by
  have tracked := waitStopDaemon_tracked settled.tracked port started
  have noDelay : supervisor.delayed started = false := by
    rcases inTime with finished | ⟨_, idle⟩
    · exact finished.2.1
    · exact idle
  have unwatched (finished : Finished supervisor started) (fd : Nat) :
      supervisor.sc.watched fd ≠ some (.subprocess started) := by
    intro watches
    apply finished.2.2.1
    rw [(settled.tracked.exitEntry fd started watches).2]
    exact watches
  unfold waitStopDaemon at tracked ⊢
  split at tracked
  · rename_i missing
    have finished : Finished supervisor started := by
      rcases inTime with finished | ⟨entry, _⟩
      · exact finished
      · rw [missing] at entry
        cases entry
    have returned (other : Nat)
        (ended : Function.update supervisor.stopped started true other = true) :
        other = started ∨ supervisor.stopped other = true := by
      by_cases same : other = started
      · exact .inl same
      · rw [Function.update_of_ne same] at ended
        exact .inr ended
    refine settled.keeps tracked (Nat.le_refl _) (fun other now => ?_)
      (fun _ member => .inl member) (fun other ended => ?_) (fun _ _ live => live)
      (fun _ _ delays => delays) (fun _ _ _ watches => watches) (fun _ _ _ entry => .inl entry)
    · rcases now with ended | waits
      · rcases returned other ended with new | before
        · subst other
          exact .inr ⟨known, noDelay, unwatched finished⟩
        · exact .inl (.inl before)
      · exact .inl (.inr waits)
    · rcases returned other ended with new | before
      · subst other
        exact .inr finished.1
      · exact .inl before
  · rename_i daemon entry
    refine settled.keeps tracked (Nat.le_refl _) (fun other now => ?_) (fun stop member => ?_)
      (fun _ ended => .inl ended) (fun _ _ live => live) (fun _ _ delays => delays)
      (fun other fd _ watches => ?_) (fun _ _ _ entry => .inl entry)
    · rcases now with ended | ⟨stop, member, same⟩
      · exact .inl (.inl ended)
      · rcases List.mem_cons.mp member with new | before
        · subst stop
          subst same
          refine .inr ⟨known, noDelay, fun fd watches => ?_⟩
          rcases watched_registerNode watches with ⟨_, impossible⟩ | registered
          · cases impossible
          · obtain ⟨apart, earlier⟩ := watched_unregisterNode.mp registered
            rcases inTime with finished | ⟨present, _⟩
            · exact unwatched finished fd earlier
            · rw [entry, Option.some.injEq] at present
              rw [present] at apart
              exact apart (settled.tracked.exitEntry fd started earlier).2.symm
        · exact .inl (.inr ⟨stop, before, same⟩)
    · rcases List.mem_cons.mp member with new | before
      · subst stop
        rcases inTime with finished | ⟨present, _⟩
        · exact .inr (.inr finished.1)
        · rw [entry, Option.some.injEq] at present
          exact .inr (.inl present.symm)
      · exact .inl before
    · rcases watched_registerNode watches with ⟨_, impossible⟩ | registered
      · cases impossible
      · exact (watched_unregisterNode.mp registered).2

/-- A call that finds the port not listed counts as a stop of the last start on it, which is
being stopped already. -/
theorem stopRun_settled (settled : Settled supervisor) (recorded : Recorded supervisor)
    {kind : DaemonKind} {port : Nat} (inTime : StopsInTime supervisor kind port) :
    Settled (supervisor.stopRun kind port) := by
  have tracked := stopRun_tracked settled.tracked kind port
  unfold stopRun at tracked ⊢
  split at tracked
  · rename_i unlisted
    cases last : supervisor.lastStart kind port with
    | none => exact settled
    | some started =>
        have stopping : Stopping supervisor started := by
          rcases recorded kind port started last with listed | stopping
          · rw [unlisted] at listed
            cases listed
          · exact stopping
        have returned (other : Nat)
            (ended : Function.update supervisor.stopped started true other = true) :
            other = started ∨ supervisor.stopped other = true := by
          by_cases same : other = started
          · exact .inl same
          · rw [Function.update_of_ne same] at ended
            exact .inr ended
        rw [last] at tracked
        refine settled.keeps tracked (Nat.le_refl _) (fun other now => .inl ?_)
          (fun _ member => .inl member) (fun other ended => ?_) (fun _ _ live => live)
          (fun _ _ delays => delays) (fun _ _ _ watches => watches) (fun _ _ _ entry => .inl entry)
        · rcases now with ended | waits
          · rcases returned other ended with new | before
            · exact new ▸ stopping
            · exact .inl before
          · exact .inr waits
        · rcases returned other ended with new | before
          · exact .inr (new ▸ inTime.2 unlisted started last)
          · exact .inl before
  · rename_i started listed
    exact waitStopDaemon_settled (listPort_settled settled kind port)
      (settled.listed kind port started listed) (inTime.1 started listed)

theorem start_recorded : Recorded start := by
  intro kind port node last
  cases last

theorem stopping_coEvent (stopping : Stopping supervisor node) (fd : Nat) (stop : StopCall) :
    Stopping (supervisor.coEvent fd stop) node := by
  by_cases same : node = stop.started
  · exact .inl (by simp [coEvent, same])
  · rcases stopping with ended | ⟨call, member, own⟩
    · exact .inl (by simpa only [coEvent, Function.update_of_ne same] using ended)
    · have apart : call ≠ stop := fun equal => same (by rw [← own, equal])
      exact .inr ⟨call, (List.mem_erase_of_ne apart).mpr member, own⟩

theorem stopping_waitStopDaemon {port started : Nat} :
    Stopping (supervisor.waitStopDaemon port started) node ↔
      node = started ∨ Stopping supervisor node := by
  unfold waitStopDaemon Stopping
  split
  · by_cases same : node = started
    · simp [same]
    · simp [same]
  · simp only [List.mem_cons, exists_eq_or_imp]
    grind

theorem stopping_stopRun (stopping : Stopping supervisor node) (kind : DaemonKind)
    (port : Nat) : Stopping (supervisor.stopRun kind port) node := by
  unfold stopRun
  split
  · refine stopping.imp (fun ended => ?_) (fun waits => waits)
    cases supervisor.lastStart kind port with
    | none => exact ended
    | some started =>
        by_cases same : node = started
        · simp [same]
        · simpa [same] using ended
  · exact stopping_waitStopDaemon.mpr (.inr stopping)

theorem waitStopDaemon_keeps (supervisor : Supervisor) (port started : Nat) :
    (supervisor.waitStopDaemon port started).configMap = supervisor.configMap ∧
      (supervisor.waitStopDaemon port started).lastStart = supervisor.lastStart := by
  unfold waitStopDaemon
  split
  · exact ⟨rfl, rfl⟩
  · exact ⟨rfl, rfl⟩

theorem stopRun_recorded (recorded : Recorded supervisor) (kind : DaemonKind) (port : Nat) :
    Recorded (supervisor.stopRun kind port) := by
  intro other place node last
  have keeps : Stopping supervisor node → Stopping (supervisor.stopRun kind port) node :=
    fun stopping => stopping_stopRun stopping kind port
  unfold stopRun at keeps last ⊢
  split at last
  · rename_i unlisted
    simp only [unlisted] at keeps ⊢
    exact (recorded other place node last).imp (fun listed => listed) keeps
  · rename_i started listed
    simp only [listed] at keeps ⊢
    obtain ⟨configMap, lastStart⟩ :=
      (supervisor.listPort kind port none).waitStopDaemon_keeps port started
    rw [lastStart] at last
    rw [configMap]
    rcases recorded other place node last with still | stopping
    · by_cases same : other = kind ∧ place = port
      · rw [same.1, same.2, listed, Option.some.injEq] at still
        exact .inr (stopping_waitStopDaemon.mpr (.inl still.symm))
      · refine .inl ?_
        by_cases sameKind : other = kind
        · have apart : place ≠ port := fun samePort => same ⟨sameKind, samePort⟩
          subst other
          simpa only [listPort, Function.update_self, Function.update_of_ne apart] using still
        · simpa only [listPort, Function.update_of_ne sameKind] using still
    · exact .inr (keeps stopping)

theorem startRun_recorded (recorded : Recorded supervisor) {kind : DaemonKind} {fd : Nat}
    (taken : supervisor.startRun kind fd = some next) : Recorded next := by
  obtain ⟨_, ⟨_, same⟩ | ⟨_, same⟩⟩ := startRun_cases taken
  · subst next
    intro other place node last
    by_cases sameKind : other = kind
    · subst other
      by_cases samePort : place = supervisor.newPort
      · simp only [recordStart, samePort, Function.update_self] at last
        exact .inl (by
          simpa only [recordStart, listPort, samePort, Function.update_self] using last)
      · simp only [recordStart, Function.update_self, Function.update_of_ne samePort] at last
        simp only [recordStart, listPort, Function.update_self, Function.update_of_ne samePort]
        exact recorded kind place node last
    · simp only [recordStart, Function.update_of_ne sameKind] at last
      simp only [recordStart, listPort, Function.update_of_ne sameKind]
      exact recorded other place node last
  · subst next
    exact recorded

theorem step_settled {label : SupervisorLabel} (settled : Settled supervisor)
    (recorded : Recorded supervisor) (inTime : InTime supervisor label)
    (taken : step supervisor label = some next) :
    Settled next := by
  cases label with
  | startDevice fd | startSm fd => exact startRun_settled settled taken
  | stopDevice port | stopSm port =>
      simp only [step, Option.some.injEq] at taken
      subst next
      exact stopRun_settled settled recorded inTime
  | childExit pid ok => exact childExit_settled settled taken
  | handleEvent fd garbage =>
      rcases handleEvent_cases settled.tracked taken with ⟨daemon, watches, dead, same⟩ |
        ⟨stop, watches, dead, same⟩
      · subst next
        exact subprocessEvent_settled settled garbage watches dead
      · subst next
        exact coEvent_settled settled watches dead
  | restart daemon fd => exact restart_settled settled taken
  | destroyNode daemon => exact destroyNode_settled settled taken

theorem step_recorded {label : SupervisorLabel} (tracked : Tracked supervisor)
    (recorded : Recorded supervisor) (taken : step supervisor label = some next) :
    Recorded next := by
  cases label with
  | startDevice fd | startSm fd => exact startRun_recorded recorded taken
  | stopDevice port | stopSm port =>
      simp only [step, Option.some.injEq] at taken
      subst next
      exact stopRun_recorded recorded _ port
  | childExit pid ok =>
      have same := childExit_eq taken
      subst next
      exact recorded
  | handleEvent fd garbage =>
      rcases handleEvent_cases tracked taken with ⟨daemon, _, _, same⟩ | ⟨stop, _, _, same⟩
      · subst next
        exact recorded
      · subst next
        exact fun kind port node last => (recorded kind port node last).imp
          (fun listed => listed) (fun stopping => stopping_coEvent stopping fd stop)
  | restart daemon fd =>
      obtain ⟨_, _, same⟩ := restart_cases taken
      subst next
      exact recorded
  | destroyNode daemon =>
      obtain ⟨_, _, _, same⟩ := destroyNode_cases taken
      subst next
      exact recorded

/-- As long as a stop finds the node of its start, outside its restart delay or with nothing
left to stop, and none returns at once while the child still lives, no child of a start lives
once a call to stop it has returned. -/
theorem always_stopFinal (labels : List SupervisorLabel)
    (inTime : Meets step InTime start labels) : Always step StopFinal start labels := by
  have invariant : Always step (fun state => Settled state ∧ Recorded state) start labels :=
    always_of_meets (fun _ _ _ holds inTime taken =>
      ⟨step_settled holds.1 holds.2 inTime taken, step_recorded holds.1.tracked holds.2 taken⟩)
      ⟨start_settled, start_recorded⟩ inTime
  exact invariant.mono fun _ holds => holds.1.stopFinal

def crashDuringStop : List SupervisorLabel :=
  [.startDevice 5, .childExit 0 false, .handleEvent 5 false, .restart 0 5, .stopDevice 50110,
    .childExit 1 false, .handleEvent 5 false]

theorem always_stopFinal_crashDuringStop :
    ∃ final, exec step start crashDuringStop = some final ∧ final.stopped 0 = true ∧
      Always step StopFinal start crashDuringStop :=
  ⟨_, rfl, rfl, always_stopFinal crashDuringStop (by decide)⟩

/-- A stop within the restart delay returns at once, and the delay then ends with a child. -/
theorem restart_after_stop :
    ∃ final, exec step start
        [.startDevice 5, .childExit 0 false, .handleEvent 5 false, .stopDevice 50110,
          .handleEvent 5 false, .restart 0 5] = some final ∧
      final.stopped 0 = true ∧ (final.children 1).status = .live ∧ (final.children 1).node = 0 :=
  ⟨_, rfl, rfl, by decide, by decide⟩

end AutoDrop.Supervisor
