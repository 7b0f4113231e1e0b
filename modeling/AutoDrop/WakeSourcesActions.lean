import AutoDrop.WakeSourcesInvariant

/-!
What the actions of one turn do to the waking sources: a suspension makes them, a handler or
an `unlock` takes every source of a call away as it wakes the coroutine.
-/

namespace AutoDrop.CoWorld

open EventLoop

variable {Co Mutex : Type*} {world next : CoWorld Co Mutex} {co : Co} {yieldNo : Nat}
  {call : YieldCall Mutex}

/-- What holds between two actions of one turn, the handlers apart. -/
structure Settled (world : CoWorld Co Mutex) : Prop where
  loop : LoopInvariant world.loop
  sources : Sources world
  logs : Logs world

theorem Settled.suspended_ne [DecidableEq Co] (settled : Settled world)
    (current : world.loop.currentCo = some co) {which : Co}
    (inside : SuspendedIn world which yieldNo call) : which ≠ co := by
  intro same
  have runs := settled.loop.current co current
  simp [← same, inside.1] at runs

/-- Nodes and queues may differ, all else is the same. -/
def Prepared (world base : CoWorld Co Mutex) : Prop :=
  ∃ fdToNode mutexes,
    base = { world with loop := { world.loop with fdToNode }, mutexes }

theorem Prepared.refl (world : CoWorld Co Mutex) : Prepared world world :=
  ⟨world.loop.fdToNode, world.mutexes, rfl⟩

theorem Prepared.registerNode {base : CoWorld Co Mutex} (prepared : Prepared world base)
    (fd : Nat) (node : ScNode Co) : Prepared world (base.registerNode fd node) := by
  obtain ⟨fdToNode, mutexes, rfl⟩ := prepared
  unfold CoWorld.registerNode EventLoop.registerNode
  split
  · exact ⟨_, mutexes, rfl⟩
  · exact ⟨fdToNode, mutexes, rfl⟩

theorem Prepared.unregisterNode {base : CoWorld Co Mutex} (prepared : Prepared world base)
    (fd : Nat) : Prepared world (base.unregisterNode fd) := by
  obtain ⟨fdToNode, mutexes, rfl⟩ := prepared
  exact ⟨_, mutexes, rfl⟩

theorem Prepared.setMutex [DecidableEq Mutex] {base : CoWorld Co Mutex}
    (prepared : Prepared world base) (mutex : Mutex) (value : QueuedMutex Co) :
    Prepared world (base.setMutex mutex value) := by
  obtain ⟨fdToNode, mutexes, rfl⟩ := prepared
  exact ⟨fdToNode, _, rfl⟩

theorem found_registerNode {base : CoWorld Co Mutex} {fd other : Nat} {node found : ScNode Co}
    (free : base.loop.lookupNode fd = none)
    (looks : (base.registerNode fd node).loop.lookupNode other = some found) :
    base.loop.lookupNode other = some found ∨ other = fd ∧ found = node := by
  simp only [CoWorld.registerNode, lookupNode_registerNode free] at looks
  split at looks
  · rename_i same
    exact .inr ⟨same, (Option.some.inj looks).symm⟩
  · exact .inl looks

theorem found_unregisterNode {base : CoWorld Co Mutex} {fd other : Nat} {found : ScNode Co}
    (looks : (base.unregisterNode fd).loop.lookupNode other = some found) :
    other ≠ fd ∧ base.loop.lookupNode other = some found := by
  simp only [CoWorld.unregisterNode, lookupNode_unregisterNode] at looks
  split at looks
  · cases looks
  · rename_i apart
    exact ⟨apart, looks⟩

theorem setMutex_settled [DecidableEq Mutex] {mutex : Mutex} {value : QueuedMutex Co}
    (settled : Settled world) (queue : value.waitCo = (world.mutexes mutex).waitCo) :
    Settled (world.setMutex mutex value) := by
  refine ⟨settled.loop, settled.sources.frame (fun _ _ found => .inl found) (fun other => ?_)
    fun _ _ _ inside => inside, settled.logs.frame rfl rfl rfl rfl (fun _ none => none)
      (fun _ ready => .inr ready) fun _ suspended => suspended⟩
  by_cases same : other = mutex
  · simp [setMutex, same, queue]
  · simp [setMutex, same]

theorem Settled.with_rest (settled : Settled world) (retrying : Co → Option Mutex)
    (yieldResult : Co → Bool) : Settled { world with retrying, yieldResult } :=
  ⟨settled.loop, settled.sources.frame (fun _ _ found => .inl found) (fun _ => rfl)
    fun _ _ _ inside => inside, settled.logs.frame rfl rfl rfl rfl (fun _ gone => gone)
      (fun _ ready => .inr ready) fun _ suspended => suspended⟩

theorem Prepared.stopTimer (timer : Option Nat) : Prepared world (world.stopTimer timer) := by
  cases timer with
  | none => exact Prepared.refl world
  | some timerFd => exact (Prepared.refl world).unregisterNode timerFd

theorem found_stopTimer {timer : Option Nat} {other : Nat} {found : ScNode Co}
    (looks : (world.stopTimer timer).loop.lookupNode other = some found) :
    world.loop.lookupNode other = some found ∧ timer ≠ some other := by
  cases timer with
  | none => exact ⟨looks, by simp⟩
  | some timerFd =>
      obtain ⟨apart, before⟩ := found_unregisterNode looks
      exact ⟨before, by simpa using Ne.symm apart⟩

theorem mutexes_stopTimer (timer : Option Nat) :
    (world.stopTimer timer).mutexes = world.mutexes := by
  cases timer <;> rfl

section Actions

variable [DecidableEq Co] {fdToNode : List (Nat × ScNode Co)} {mutexes : Mutex → QueuedMutex Co}

theorem finish_settled (settled : Settled world) (current : world.loop.currentCo = some co) :
    Settled { world with loop := world.loop.leaveTurn co .dead } := by
  have runs := settled.loop.current co current
  refine ⟨leaveTurn_loopInvariant settled.loop current (by simp), ?_, ?_⟩
  · refine settled.sources.frame (fun fd node found => .inl found) (fun _ => rfl)
      fun which yieldNo call inside => ?_
    have apart := settled.suspended_ne current inside
    simpa [SuspendedIn, leaveTurn, setCoState, apart] using inside
  · refine settled.logs.frame rfl rfl rfl rfl (fun which none => ?_) (fun which ready => ?_)
      fun which suspended => ?_ <;> by_cases same : which = co <;>
      simp_all [leaveTurn, setCoState]

theorem suspend_sources (settled : Settled world) (current : world.loop.currentCo = some co)
    (placed : ∀ fd node, fdToNode.lookup fd = some node → world.loop.lookupNode fd = some node ∨
      node.At fd ∧ node.source = some (co, world.yieldCount, call))
    (queued : ∀ mutex which yieldNo, (which, yieldNo) ∈ (mutexes mutex).waitCo →
      (which, yieldNo) ∈ (world.mutexes mutex).waitCo ∨
        (which, yieldNo) = (co, world.yieldCount) ∧ call = .inLock mutex)
    (distinct : ∀ mutex, (mutexes mutex).waitCo.Nodup) :
    Sources (suspend { world with loop := { world.loop with fdToNode }, mutexes } co call) := by
  have kept {which : Co} {yieldNo : Nat} {other : YieldCall Mutex}
      (inside : SuspendedIn world which yieldNo other) : SuspendedIn (suspend { world with
        loop := { world.loop with fdToNode }, mutexes } co call) which yieldNo other := by
    have apart := settled.suspended_ne current inside
    simpa [SuspendedIn, suspend, leaveTurn, setCoState, apart] using inside
  have own : SuspendedIn (suspend { world with
      loop := { world.loop with fdToNode }, mutexes } co call) co world.yieldCount call := by
    simp [SuspendedIn, suspend, leaveTurn, setCoState]
  refine ⟨fun fd node found => ?_, fun fd node found which yieldNo other source => ?_,
    fun mutex which yieldNo waits => ?_, distinct⟩
  · rcases placed fd node found with before | ⟨here, _⟩
    · exact settled.sources.placed fd node before
    · exact here
  · rcases placed fd node found with before | ⟨_, made⟩
    · exact kept (settled.sources.nodes fd node before which yieldNo other source)
    · rw [made] at source
      simp only [Option.some.injEq, Prod.mk.injEq] at source
      obtain ⟨rfl, rfl, rfl⟩ := source
      exact own
  · rcases queued mutex which yieldNo waits with before | ⟨same, rfl⟩
    · exact kept (settled.sources.queued mutex which yieldNo before)
    · simp only [Prod.mk.injEq] at same
      obtain ⟨rfl, rfl⟩ := same
      exact own

theorem suspend_logs (settled : Settled world) :
    Logs (suspend { world with loop := { world.loop with fdToNode }, mutexes } co call) := by
  have logs := settled.logs
  have state {which : Co} (apart : which ≠ co) :
      (suspend { world with loop := { world.loop with fdToNode }, mutexes } co
        call).loop.coState which = world.loop.coState which := by
    simp [suspend, leaveTurn, setCoState, apart]
  have yields {which : Co} {number : Nat} {other : YieldCall Mutex}
      (yielding : (suspend { world with loop := { world.loop with fdToNode }, mutexes } co
        call).yielding which = some (number, other)) :
      which = co ∧ number = world.yieldCount ∨
        which ≠ co ∧ world.yielding which = some (number, other) := by
    by_cases same : which = co
    · simp only [suspend, same, Function.update_self, Option.some.injEq, Prod.mk.injEq] at yielding
      exact .inl ⟨same, yielding.1.symm⟩
    · exact .inr ⟨same, by simpa [suspend, same] using yielding⟩
  refine ⟨fun which unborn => ?_, fun which number other yielding => ?_,
    fun first second number left right one two => ?_, logs.woken, fun wake member => ?_,
    logs.wokenOnce, logs.resumed, fun entry member number ended => ?_,
    fun entry member first outside => ?_, logs.resumedOnce⟩
  · by_cases same : which = co
    · simp [suspend, leaveTurn, setCoState, same] at unborn
    · have before := logs.unborn which ((state same).symm.trans unborn)
      simpa [suspend, same] using before
  · rcases yields yielding with ⟨_, new⟩ | ⟨_, before⟩
    · simp [suspend, new]
    · have bound := logs.numbered which number other before
      simp only [suspend]
      omega
  · rcases yields one with ⟨here, new⟩ | ⟨_, before⟩ <;>
      rcases yields two with ⟨there, again⟩ | ⟨_, other⟩
    · rw [here, there]
    · have bound := logs.numbered second number _ other
      omega
    · have bound := logs.numbered first number _ before
      omega
    · exact logs.unique first second number _ _ before other
  · obtain ⟨bound, past⟩ := logs.wokenPast wake member
    refine ⟨by simp only [suspend]; omega, fun which other inside => ?_⟩
    rcases yields inside.2 with ⟨_, new⟩ | ⟨apart, before⟩
    · omega
    · exact past which other ⟨(state apart).symm.trans inside.1, before⟩
  · obtain ⟨bound, past⟩ := logs.resumedPast entry member number ended
    refine ⟨by simp only [suspend]; omega, fun which other yielding => ?_⟩
    rcases yields yielding with ⟨_, new⟩ | ⟨_, before⟩
    · omega
    · exact past which other before
  · by_cases same : entry.co = co
    · simp [suspend, same] at outside
    · have unyielding : world.yielding entry.co = none := by simpa [suspend, same] using outside
      simpa [state same] using logs.started entry member first unyielding

theorem suspend_settled {base : CoWorld Co Mutex} (settled : Settled world)
    (prepared : Prepared world base) (current : world.loop.currentCo = some co)
    (placed : ∀ fd node, base.loop.lookupNode fd = some node →
      world.loop.lookupNode fd = some node ∨
        node.At fd ∧ node.source = some (co, world.yieldCount, call))
    (queued : ∀ mutex which yieldNo, (which, yieldNo) ∈ (base.mutexes mutex).waitCo →
      (which, yieldNo) ∈ (world.mutexes mutex).waitCo ∨
        (which, yieldNo) = (co, world.yieldCount) ∧ call = .inLock mutex)
    (distinct : ∀ mutex, (base.mutexes mutex).waitCo.Nodup) : Settled (base.suspend co call) := by
  obtain ⟨fdToNode, mutexes, rfl⟩ := prepared
  exact ⟨leaveTurn_loopInvariant (settled.loop.of_fdToNode fdToNode) current (by simp),
    suspend_sources settled current placed queued distinct, suspend_logs settled⟩

/-- A source that is taken away as it wakes leaves no second source of the call. -/
theorem wake_settled {base : CoWorld Co Mutex} (settled : Settled world)
    (prepared : Prepared world base) (acting : world.loop.Acting)
    (inside : SuspendedIn world co yieldNo call)
    (nodes : ∀ fd node, base.loop.lookupNode fd = some node →
      world.loop.lookupNode fd = some node ∧
        ∀ which (other : YieldCall Mutex), node.source ≠ some (which, yieldNo, other))
    (queues : ∀ mutex, ((base.mutexes mutex).waitCo.Sublist (world.mutexes mutex).waitCo) ∧
      ∀ which, (which, yieldNo) ∉ (base.mutexes mutex).waitCo) :
    Settled (base.setReady co yieldNo) := by
  obtain ⟨fdToNode, mutexes, rfl⟩ := prepared
  have logs := settled.logs
  have state {which : Co} (apart : which ≠ co) :
      (setReady { world with loop := { world.loop with fdToNode }, mutexes } co
        yieldNo).loop.coState which = world.loop.coState which := by
    simp [setReady, setCoState, apart]
  have kept {which : Co} {number : Nat} {other : YieldCall Mutex} (away : number ≠ yieldNo)
      (known : SuspendedIn world which number other) : SuspendedIn (setReady { world with
        loop := { world.loop with fdToNode }, mutexes } co yieldNo) which number other := by
    have apart : which ≠ co := by
      rintro rfl
      have same := known.2.symm.trans inside.2
      simp only [Option.some.injEq, Prod.mk.injEq] at same
      exact away same.1
    exact ⟨(state apart).trans known.1, known.2⟩
  refine ⟨setReady_loopInvariant (settled.loop.of_fdToNode fdToNode) acting inside.1,
    ⟨fun fd node found => settled.sources.placed fd node (nodes fd node found).1,
      fun fd node found which number other source => ?_, fun mutex which number waits => ?_,
      fun mutex => (queues mutex).1.nodup (settled.sources.distinct mutex)⟩, ?_⟩
  · obtain ⟨before, away⟩ := nodes fd node found
    refine kept ?_ (settled.sources.nodes fd node before which number other source)
    rintro rfl
    exact away which other source
  · obtain ⟨sublist, away⟩ := queues mutex
    refine kept ?_ (settled.sources.queued mutex which number (sublist.subset waits))
    rintro rfl
    exact away which waits
  · have past : ∀ wake ∈ world.wakes, wake.yieldNo ≠ yieldNo := by
      rintro wake member rfl
      exact (logs.wokenPast wake member).2 co call inside
    refine ⟨fun which unborn => ?_, logs.numbered, logs.unique, ?_, ?_, ?_, logs.resumed,
      logs.resumedPast, fun entry member first outside => ?_, logs.resumedOnce⟩
    · by_cases same : which = co
      · simp [setReady, setCoState, same] at unborn
      · exact logs.unborn which ((state same).symm.trans unborn)
    · intro wake member
      rcases List.mem_cons.mp member with rfl | before
      · exact ⟨inside.1, by simp [inside.2]⟩
      · exact logs.woken wake before
    · intro wake member
      rcases List.mem_cons.mp member with rfl | before
      · refine ⟨logs.numbered co yieldNo call inside.2, fun which other again => ?_⟩
        obtain rfl : which = co := logs.unique which co yieldNo other call again.2 inside.2
        have ready := again.1
        simp [setReady, setCoState] at ready
      · obtain ⟨bound, gone⟩ := logs.wokenPast wake before
        refine ⟨bound, fun which other again => ?_⟩
        by_cases same : which = co
        · have ready := again.1
          simp [setReady, setCoState, same] at ready
        · exact gone which other ⟨(state same).symm.trans again.1, again.2⟩
    · refine List.nodup_cons.mpr ⟨fun twice => ?_, logs.wokenOnce⟩
      obtain ⟨wake, member, same⟩ := List.mem_map.mp twice
      exact past wake member same
    · by_cases same : entry.co = co
      · have yielding : world.yielding co = none := same ▸ outside
        simp [inside.2] at yielding
      · simpa [state same] using logs.started entry member first outside

theorem yieldByTimer_settled {timerFd : Nat} (settled : Settled world)
    (current : world.loop.currentCo = some co) (free : world.loop.lookupNode timerFd = none) :
    Settled (world.yieldByTimer co timerFd) := by
  refine suspend_settled settled ((Prepared.refl world).registerNode _ _) current
    (fun fd node found => ?_) (fun _ _ _ waits => .inl waits) settled.sources.distinct
  rcases found_registerNode free found with before | ⟨rfl, rfl⟩
  · exact .inl before
  · exact .inr ⟨rfl, rfl⟩

theorem yieldByFd_settled {fd : Nat} {timer : Option Nat} (settled : Settled world)
    (current : world.loop.currentCo = some co) (free : world.loop.lookupNode fd = none)
    (timerFree : ∀ timerFd ∈ timer, timerFd ≠ fd ∧ world.loop.lookupNode timerFd = none) :
    Settled (world.yieldByFd co fd timer) := by
  cases timer with
  | none =>
      refine suspend_settled settled ((Prepared.refl world).registerNode _ _) current
        (fun other node found => ?_) (fun _ _ _ waits => .inl waits) settled.sources.distinct
      rcases found_registerNode free found with before | ⟨rfl, rfl⟩
      · exact .inl before
      · exact .inr ⟨rfl, rfl⟩
  | some timerFd =>
      obtain ⟨apart, timerFree⟩ := timerFree timerFd rfl
      refine suspend_settled settled
        (((Prepared.refl world).registerNode timerFd _).registerNode fd _) current
        (fun other node found => ?_) (fun _ _ _ waits => .inl waits) settled.sources.distinct
      have stillFree : (world.registerNode timerFd
          (.coTimeout timerFd fd co world.yieldCount)).loop.lookupNode fd = none := by
        simp only [CoWorld.registerNode, lookupNode_registerNode timerFree,
          if_neg (Ne.symm apart), free]
      rcases found_registerNode stillFree found with timed | ⟨rfl, rfl⟩
      · rcases found_registerNode timerFree timed with before | ⟨rfl, rfl⟩
        · exact .inl before
        · exact .inr ⟨rfl, rfl⟩
      · exact .inr ⟨rfl, rfl⟩

theorem waitInLock_settled [DecidableEq Mutex] {mutex : Mutex} (settled : Settled world)
    (current : world.loop.currentCo = some co) : Settled (world.waitInLock co mutex) := by
  have absent : (co, world.yieldCount) ∉ (world.mutexes mutex).waitCo := by
    intro waits
    have inside := settled.sources.queued mutex co world.yieldCount waits
    have bound := settled.logs.numbered co world.yieldCount _ inside.2
    omega
  refine suspend_settled settled ((Prepared.refl world).setMutex mutex _) current
    (fun _ _ found => .inl found) (fun other which number waits => ?_) fun other => ?_
  · by_cases same : other = mutex
    · subst other
      simp only [setMutex, Function.update_self, List.mem_append, List.mem_singleton] at waits
      rcases waits with before | new
      · exact .inl before
      · exact .inr ⟨new, rfl⟩
    · exact .inl (by simpa [setMutex, same] using waits)
  · by_cases same : other = mutex
    · subst other
      simp only [setMutex, Function.update_self]
      refine List.nodup_append.mpr ⟨settled.sources.distinct mutex, by simp, ?_⟩
      intro entry member new isNew
      rw [List.mem_singleton.mp isNew]
      rintro rfl
      exact absent member
    · simpa [setMutex, same] using settled.sources.distinct other

theorem testHolder_settled [DecidableEq Mutex] {mutex : Mutex} (settled : Settled world)
    (current : world.loop.currentCo = some co) : Settled (world.testHolder co mutex) := by
  unfold testHolder
  split
  · exact waitInLock_settled settled current
  · exact setMutex_settled settled (by simp)

theorem unlock_settled [DecidableEq Mutex] {mutex : Mutex} (settled : Settled world)
    (acting : world.loop.Acting) : Settled (world.unlock mutex) := by
  simp only [unlock]
  split
  · rename_i co yieldNo others free queue
    rw [QueuedMutex.waitCo_leave] at queue
    have inside : SuspendedIn world co yieldNo (.inLock mutex) :=
      settled.sources.queued mutex co yieldNo (by simp [queue])
    have distinct := settled.sources.distinct mutex
    rw [queue, List.nodup_cons] at distinct
    have sameYield {which : Co} {other : YieldCall Mutex}
        (again : SuspendedIn world which yieldNo other) : which = co ∧ other = .inLock mutex := by
      obtain rfl := settled.logs.unique which co yieldNo _ _ again.2 inside.2
      have same := again.2.symm.trans inside.2
      simp only [Option.some.injEq, Prod.mk.injEq] at same
      exact ⟨rfl, same.2⟩
    refine wake_settled settled ((Prepared.refl world).setMutex mutex _) acting inside
      (fun fd node found => ⟨found, fun which other source => ?_⟩) fun other => ?_
    · have again := settled.sources.nodes fd node found which yieldNo other source
      obtain ⟨_, rfl⟩ := sameYield again
      cases node <;> simp [ScNode.source] at source
    · by_cases same : other = mutex
      · subst other
        simp only [setMutex, Function.update_self, queue]
        refine ⟨List.sublist_cons_self _ _, fun which waits => ?_⟩
        have again := settled.sources.queued mutex which yieldNo (by simp [queue, waits])
        obtain ⟨rfl, _⟩ := sameYield again
        exact distinct.1 waits
      · refine ⟨by simp [setMutex, same], fun which waits => ?_⟩
        have again := settled.sources.queued other which yieldNo (by
          simpa [setMutex, same] using waits)
        have call := (sameYield again).2
        simp only [YieldCall.inLock.injEq] at call
        exact same call
  · exact setMutex_settled settled (by simp)

theorem coEventHandle_eq {fd number : Nat} (timer : Option Nat) :
    world.coEventHandle fd co number timer =
      (((world.stopTimer timer).unregisterNode fd).setReady co number).setYieldResult co true := by
  cases timer <;> rfl

theorem handleNode_settled {fd : Nat} {node : ScNode Co} (settled : Settled world)
    (acting : world.loop.Acting) (found : world.loop.lookupNode fd = some node)
    (internal : node.internal = true) : Settled (world.handleNode node) := by
  have sources := settled.sources
  have same {number : Nat} {first second : Co} {left right : YieldCall Mutex}
      (one : SuspendedIn world first number left) (two : SuspendedIn world second number right) :
      left = right := by
    obtain rfl := settled.logs.unique first second number _ _ one.2 two.2
    have calls := one.2.symm.trans two.2
    simp only [Option.some.injEq, Prod.mk.injEq] at calls
    exact calls.2
  have queues {co : Co} {number : Nat} {call : YieldCall Mutex}
      (inside : SuspendedIn world co number call) (outside : ∀ mutex, call ≠ .inLock mutex)
      (mutex : Mutex) : ((world.mutexes mutex).waitCo.Sublist (world.mutexes mutex).waitCo) ∧
        ∀ which, (which, number) ∉ (world.mutexes mutex).waitCo :=
    ⟨List.Sublist.refl _, fun which waits =>
      outside mutex (same inside (sources.queued mutex which number waits))⟩
  have event {eventFd : Nat} {co : Co} {number : Nat} {timer : Option Nat}
      (inside : SuspendedIn world co number (.byFd eventFd timer)) :
      Settled (world.coEventHandle eventFd co number timer) := by
    rw [coEventHandle_eq]
    refine (wake_settled settled ((Prepared.stopTimer timer).unregisterNode eventFd) acting inside
      (fun other node looks => ?_) (fun mutex => ?_)).with_rest _ _
    · obtain ⟨apart, timed⟩ := found_unregisterNode looks
      obtain ⟨before, stopped⟩ := found_stopTimer timed
      refine ⟨before, fun which call source => ?_⟩
      have call' := same (sources.nodes other node before which number call source) inside
      subst call'
      have place := sources.placed other node before
      cases node <;> simp [ScNode.source] at source
      · exact apart (place.symm.trans source.2.2.1)
      · exact stopped (by rw [← source.2.2.2, ← show _ = other from place])
    · rw [show ((world.stopTimer timer).unregisterNode eventFd).mutexes = world.mutexes from
        mutexes_stopTimer timer]
      exact queues inside (by simp) mutex
  cases node with
  | other => simp [ScNode.internal] at internal
  | coEvent eventFd co number timer =>
      exact event (sources.nodes fd _ found co number _ rfl)
  | coTimeout timerFd eventFd co number =>
      exact (event (sources.nodes fd _ found co number _ rfl)).with_rest _ _
  | coTimer timerFd co number =>
      have inside := sources.nodes fd _ found co number (.byTimer timerFd) rfl
      refine wake_settled settled ((Prepared.refl world).unregisterNode timerFd) acting inside
        (fun other node looks => ?_) (queues inside (by simp))
      obtain ⟨apart, before⟩ := found_unregisterNode looks
      refine ⟨before, fun which call source => ?_⟩
      have call' := same (sources.nodes other node before which number call source) inside
      subst call'
      cases node <;> simp [ScNode.source] at source
      exact apart ((sources.placed other _ before).symm.trans source.2.2)

end Actions

end AutoDrop.CoWorld
