import AutoDrop.DescriptorTable
import AutoDrop.EventSc
import AutoDrop.LabelledRun
import Mathlib.Data.List.Nodup

/-!
`restart_redis_subscriber` and the reconnect in `AD_REDIS_EVENT_NODE::handleEvent`. Both
open a connection and suspend until the server has answered to AUTH; their turns before and
behind that are one step each. Connects and registrations succeed. A node that neither
`m_redis_node` nor the loop holds is destroyed at some later time, since a coroutine may hold
it too. Published messages are numbered, and each connection that has subscribed gets them.
-/

namespace AutoDrop

inductive RedisNodeStage
  | restarting
  | reconnecting
  | subscribed
  | closed
deriving DecidableEq

/-- The entries of `m_fdToNode` for a node: the `AD_CO_EVENT_NODE` that waits for its server,
and the node itself. -/
inductive SubscriberNode
  | coEvent (node : Nat)
  | redis (node : Nat)
deriving DecidableEq

structure RedisSubscriber where
  files : DescriptorTable
  stage : Nat → RedisNodeStage
  inbox : Nat → List Nat
  sc : EventSc SubscriberNode
  redisNode : Option Nat
  published : Nat
  handled : List Nat

inductive SubscriberLabel
  | restart (fd : Nat)
  | restarted (node : Nat)
  | eof (node fd : Nat)
  | reconnected (node : Nat)
  | publish
  | handleMessage (node : Nat)
  | destroy (node : Nat)

/-- The node waits for the answer to its AUTH. -/
def RedisNodeStage.connecting : RedisNodeStage → Bool
  | restarting | reconnecting => true
  | subscribed | closed => false

def SubscriberNode.node : SubscriberNode → Nat
  | coEvent node | redis node => node

namespace RedisSubscriber

def start : RedisSubscriber where
  files := .empty
  stage := fun _ => .closed
  inbox := fun _ => []
  sc := .start
  redisNode := none
  published := 0
  handled := []

def registered (subscriber : RedisSubscriber) (node : Nat) : Bool :=
  (subscriber.files.fdOf node).any fun fd => subscriber.sc.fdToNode fd = some (.redis node)

/-- `m_redis_node` is unregistered by its descriptor. -/
def unregisterOwn (subscriber : RedisSubscriber) : EventSc SubscriberNode :=
  match subscriber.redisNode.bind subscriber.files.fdOf with
  | some fd => subscriber.sc.unregisterNode fd
  | none => subscriber.sc

/-- `prepare_redis` up to its first yield. -/
def connect (subscriber : RedisSubscriber) (fd : Nat) (free : ¬subscriber.files.InUse fd)
    (stage : RedisNodeStage) : RedisSubscriber :=
  let node := subscriber.files.next
  { subscriber with
    files := subscriber.files.openFd fd free
    stage := Function.update subscriber.stage node stage
    inbox := Function.update subscriber.inbox node []
    sc := subscriber.sc.registerNode fd (.coEvent node) }

/-- The rest of `prepare_redis`, the SUBSCRIBE calls and `registerNode`. -/
def subscribe (subscriber : RedisSubscriber) (node fd : Nat) : RedisSubscriber :=
  { subscriber with
    stage := Function.update subscriber.stage node .subscribed
    sc := (subscriber.sc.unregisterNode fd).registerNode fd (.redis node) }

def deliver (subscriber : RedisSubscriber) (node : Nat) : List Nat :=
  if subscriber.stage node = .subscribed then
    subscriber.inbox node ++ [subscriber.published]
  else subscriber.inbox node

def stepNode (subscriber : RedisSubscriber) (own : Nat) :
    SubscriberLabel → Option RedisSubscriber
  | .restarted node =>
      if subscriber.stage node = .restarting then
        some { subscriber.subscribe node own with redisNode := some node }
      else none
  | .eof node fd =>
      if free : ¬subscriber.files.InUse fd then
        if subscriber.sc.watched own = some (.redis node) ∧ subscriber.inbox node = [] then
          some ({ subscriber with
            stage := Function.update subscriber.stage node .closed
            sc := subscriber.sc.unregisterNode own }.connect fd free .reconnecting)
        else none
      else none
  | .reconnected node =>
      if subscriber.stage node = .reconnecting then some (subscriber.subscribe node own) else none
  | .handleMessage node =>
      match subscriber.inbox node with
      | [] => none
      | message :: rest =>
          if subscriber.sc.watched own = some (.redis node) then
            some { subscriber with
              inbox := Function.update subscriber.inbox node rest
              handled := subscriber.handled ++ [message] }
          else none
  | .destroy node =>
      if (subscriber.stage node).connecting = false ∧ subscriber.redisNode ≠ some node ∧
          subscriber.registered node = false then
        some { subscriber with
          files := subscriber.files.closeFd own
          sc := subscriber.sc.closeFd own }
      else none
  | _ => none

def step (subscriber : RedisSubscriber) : SubscriberLabel → Option RedisSubscriber
  | .restart fd =>
      if free : ¬subscriber.files.InUse fd then
        some ({ subscriber with sc := subscriber.unregisterOwn }.connect fd free .restarting)
      else none
  | .publish =>
      some { subscriber with
        inbox := subscriber.deliver
        published := subscriber.published + 1 }
  | label@(.restarted node) | label@(.eof node _) | label@(.reconnected node)
  | label@(.handleMessage node) | label@(.destroy node) =>
      (subscriber.files.fdOf node).bind fun own => subscriber.stepNode own label

/-- One node at most is in the loop, it is the one of `m_redis_node`, and no message was
handled twice. -/
structure OneSubscriber (subscriber : RedisSubscriber) : Prop where
  single : ∀ fd other node second, subscriber.sc.fdToNode fd = some (.redis node) →
    subscriber.sc.fdToNode other = some (.redis second) → fd = other
  owned : ∀ fd node, subscriber.sc.fdToNode fd = some (.redis node) →
    subscriber.redisNode = some node
  once : subscriber.handled.Nodup

/-- No reconnect comes to its end, and no restart does while `m_redis_node` is in the loop. -/
def LeavesOne (subscriber : RedisSubscriber) : SubscriberLabel → Prop
  | .reconnected _ => False
  | .restarted _ => ¬subscriber.redisNode.any subscriber.registered
  | _ => True

instance (subscriber : RedisSubscriber) : ∀ label, Decidable (subscriber.LeavesOne label)
  | .reconnected _ => .isFalse id
  | .restarted _ => inferInstanceAs (Decidable ¬_)
  | .restart _ | .eof _ _ | .publish | .handleMessage _ | .destroy _ => .isTrue trivial

/-- What every run keeps. -/
structure Wired (subscriber : RedisSubscriber) : Prop where
  polled : subscriber.sc.Polled
  placed : ∀ {fd entry}, subscriber.sc.fdToNode fd = some entry →
    subscriber.files.fdOf entry.node = some fd
  waits : ∀ {fd node}, subscriber.sc.fdToNode fd = some (.coEvent node) →
    (subscriber.stage node).connecting = true
  serves : ∀ {fd node}, subscriber.sc.fdToNode fd = some (.redis node) →
    subscriber.stage node = .subscribed
  owner : ∀ {node}, subscriber.redisNode = some node →
    (∃ fd, subscriber.files.fdOf node = some fd) ∧ (subscriber.stage node).connecting = false
  unread : ∀ {node}, (subscriber.stage node).connecting = true → subscriber.inbox node = []
  apart : ∀ node, (subscriber.inbox node).Nodup
  told : ∀ {node message}, message ∈ subscriber.inbox node → message < subscriber.published
  toldHandled : ∀ {message}, message ∈ subscriber.handled → message < subscriber.published

/-- What the condition keeps. -/
structure Single (subscriber : RedisSubscriber) : Prop extends Wired subscriber where
  owned : ∀ fd node, subscriber.sc.fdToNode fd = some (.redis node) →
    subscriber.redisNode = some node
  once : subscriber.handled.Nodup
  unhandled : ∀ {fd node message}, subscriber.sc.fdToNode fd = some (.redis node) →
    message ∈ subscriber.inbox node → message ∉ subscriber.handled

/-- The steps with what enables them. -/
inductive Moves (subscriber : RedisSubscriber) : SubscriberLabel → RedisSubscriber → Prop
  | restart {fd} (free : ¬subscriber.files.InUse fd) :
      Moves subscriber (.restart fd)
        ({ subscriber with sc := subscriber.unregisterOwn }.connect fd free .restarting)
  | restarted {node own} (held : subscriber.files.fdOf node = some own)
      (stage : subscriber.stage node = .restarting) :
      Moves subscriber (.restarted node)
        { subscriber.subscribe node own with redisNode := some node }
  | eof {node own fd} (free : ¬subscriber.files.InUse fd)
      (held : subscriber.files.fdOf node = some own)
      (watches : subscriber.sc.watched own = some (.redis node)) :
      Moves subscriber (.eof node fd)
        ({ subscriber with
          stage := Function.update subscriber.stage node .closed
          sc := subscriber.sc.unregisterNode own }.connect fd free .reconnecting)
  | reconnected {node own} (held : subscriber.files.fdOf node = some own)
      (stage : subscriber.stage node = .reconnecting) :
      Moves subscriber (.reconnected node) (subscriber.subscribe node own)
  | publish :
      Moves subscriber .publish { subscriber with
        inbox := subscriber.deliver
        published := subscriber.published + 1 }
  | handleMessage {node own message rest} (watches : subscriber.sc.watched own = some (.redis node))
      (read : subscriber.inbox node = message :: rest) :
      Moves subscriber (.handleMessage node) { subscriber with
        inbox := Function.update subscriber.inbox node rest
        handled := subscriber.handled ++ [message] }
  | destroy {node own} (held : subscriber.files.fdOf node = some own)
      (idle : (subscriber.stage node).connecting = false) (loose : subscriber.redisNode ≠ some node)
      (gone : subscriber.registered node = false) :
      Moves subscriber (.destroy node) { subscriber with
        files := subscriber.files.closeFd own
        sc := subscriber.sc.closeFd own }

variable {subscriber next : RedisSubscriber} {label : SubscriberLabel} {fd node : Nat}

theorem registered_eq_true :
    subscriber.registered node = true ↔
      ∃ fd, subscriber.files.fdOf node = some fd ∧
        subscriber.sc.fdToNode fd = some (.redis node) := by
  simp [registered, Option.any_eq_true]

theorem moves_of_step (taken : subscriber.step label = some next) :
    subscriber.Moves label next := by
  cases label with
  | restart fd =>
      simp only [step, Option.dite_none_right_eq_some, Option.some.injEq] at taken
      obtain ⟨free, rfl⟩ := taken
      exact .restart free
  | publish =>
      simp only [step, Option.some.injEq] at taken
      exact taken ▸ .publish
  | restarted node =>
      simp only [step, stepNode, Option.bind_eq_some_iff, Option.ite_none_right_eq_some,
        Option.some.injEq] at taken
      obtain ⟨own, held, stage, rfl⟩ := taken
      exact .restarted held stage
  | eof node fd =>
      simp only [step, stepNode, Option.bind_eq_some_iff, Option.dite_none_right_eq_some,
        Option.ite_none_right_eq_some, Option.some.injEq] at taken
      obtain ⟨own, held, free, ⟨watches, -⟩, rfl⟩ := taken
      exact .eof free held watches
  | reconnected node =>
      simp only [step, stepNode, Option.bind_eq_some_iff, Option.ite_none_right_eq_some,
        Option.some.injEq] at taken
      obtain ⟨own, held, stage, rfl⟩ := taken
      exact .reconnected held stage
  | handleMessage node =>
      simp only [step, stepNode, Option.bind_eq_some_iff] at taken
      obtain ⟨own, held, taken⟩ := taken
      cases read : subscriber.inbox node with
      | nil => simp [read] at taken
      | cons message rest =>
          simp only [read, Option.ite_none_right_eq_some, Option.some.injEq] at taken
          obtain ⟨watches, rfl⟩ := taken
          exact .handleMessage watches read
  | destroy node =>
      simp only [step, stepNode, Option.bind_eq_some_iff, Option.ite_none_right_eq_some,
        Option.some.injEq] at taken
      obtain ⟨own, held, ⟨idle, loose, gone⟩, rfl⟩ := taken
      exact .destroy held idle loose gone

namespace Wired

theorem start : RedisSubscriber.start.Wired where
  polled := EventSc.Polled.start
  placed found := nomatch found
  waits found := nomatch found
  serves found := nomatch found
  owner own := nomatch own
  unread waiting := nomatch waiting
  apart _ := List.nodup_nil
  told member := nomatch member
  toldHandled member := nomatch member

theorem ne_next {entry : SubscriberNode} (wired : subscriber.Wired)
    (found : subscriber.sc.fdToNode fd = some entry) : entry.node ≠ subscriber.files.next := by
  intro same
  have held := wired.placed found
  rw [same, DescriptorTable.fdOf_next] at held
  cases held

theorem free_fd (wired : subscriber.Wired) (free : ¬subscriber.files.InUse fd) :
    subscriber.sc.fdToNode fd = none := by
  cases found : subscriber.sc.fdToNode fd with
  | none => rfl
  | some entry => exact (free (DescriptorTable.inUse_of_fdOf (wired.placed found))).elim

theorem unregister (wired : subscriber.Wired) (fd : Nat) :
    { subscriber with sc := subscriber.sc.unregisterNode fd }.Wired := by
  have kept {other : Nat} {entry : SubscriberNode}
      (found : (subscriber.sc.unregisterNode fd).fdToNode other = some entry) :
      subscriber.sc.fdToNode other = some entry :=
    (wired.polled.unregisterNode_eq_some.mp found).2
  exact { wired with
    polled := wired.polled.unregisterNode
    placed := fun found => wired.placed (kept found)
    waits := fun found => wired.waits (kept found)
    serves := fun found => wired.serves (kept found) }

theorem unregisterOwn (wired : subscriber.Wired) :
    { subscriber with sc := subscriber.unregisterOwn }.Wired := by
  unfold RedisSubscriber.unregisterOwn
  split
  · exact wired.unregister _
  · exact wired

theorem connect_fdToNode {stage : RedisNodeStage} (wired : subscriber.Wired)
    (free : ¬subscriber.files.InUse fd) (other : Nat) :
    (subscriber.connect fd free stage).sc.fdToNode other =
      if other = fd then some (.coEvent subscriber.files.next)
      else subscriber.sc.fdToNode other :=
  wired.polled.fdToNode_registerNode (wired.free_fd free)

theorem connect {stage : RedisNodeStage} (wired : subscriber.Wired)
    (free : ¬subscriber.files.InUse fd) (waiting : stage.connecting = true) :
    (subscriber.connect fd free stage).Wired := by
  have stages {other : Nat} (older : other ≠ subscriber.files.next) :
      (subscriber.connect fd free stage).stage other = subscriber.stage other :=
    Function.update_of_ne older ..
  have first : (subscriber.connect fd free stage).stage subscriber.files.next = stage :=
    Function.update_self ..
  have inboxes (other : Nat) : (subscriber.connect fd free stage).inbox other =
      if other = subscriber.files.next then [] else subscriber.inbox other :=
    Function.update_apply ..
  constructor
  · exact wired.polled.registerNode
  · intro other entry found
    rw [wired.connect_fdToNode] at found
    refine (DescriptorTable.fdOf_openFd free).trans ?_
    split at found
    · rename_i same
      rw [← Option.some.inj found, same]
      exact if_pos rfl
    · rw [if_neg (wired.ne_next found), wired.placed found]
  · intro other node found
    rw [wired.connect_fdToNode] at found
    split at found
    · cases Option.some.inj found
      rw [first, waiting]
    · have older : node ≠ subscriber.files.next := wired.ne_next found
      rw [stages older, wired.waits found]
  · intro other node found
    rw [wired.connect_fdToNode] at found
    split at found
    · cases Option.some.inj found
    · have older : node ≠ subscriber.files.next := wired.ne_next found
      rw [stages older, wired.serves found]
  · intro node own
    obtain ⟨⟨held, has⟩, idle⟩ := wired.owner own
    have older : node ≠ subscriber.files.next := Nat.ne_of_lt (subscriber.files.below has)
    exact ⟨⟨held, (DescriptorTable.fdOf_openFd free).trans ((if_neg older).trans has)⟩,
      (stages older).symm ▸ idle⟩
  · intro node waits
    rw [inboxes]
    split
    · rfl
    · rename_i older
      exact wired.unread (stages older ▸ waits)
  · intro node
    rw [inboxes]
    split
    · exact List.nodup_nil
    · exact wired.apart node
  · intro node message member
    rw [inboxes] at member
    split at member
    · cases member
    · exact wired.told member
  · exact wired.toldHandled

theorem subscribe_fdToNode (wired : subscriber.Wired) (other : Nat) :
    (subscriber.subscribe node fd).sc.fdToNode other =
      if other = fd then some (.redis node) else subscriber.sc.fdToNode other := by
  have gone : (subscriber.sc.unregisterNode fd).fdToNode fd = none := by
    rw [wired.polled.fdToNode_unregisterNode, if_pos rfl]
  refine (wired.polled.unregisterNode.fdToNode_registerNode gone).trans ?_
  rw [wired.polled.fdToNode_unregisterNode]
  split <;> rfl

theorem subscribe (wired : subscriber.Wired) (held : subscriber.files.fdOf node = some fd) :
    (subscriber.subscribe node fd).Wired := by
  have stages {other : Nat} (apart : other ≠ node) :
      (subscriber.subscribe node fd).stage other = subscriber.stage other :=
    Function.update_of_ne apart ..
  have own : (subscriber.subscribe node fd).stage node = .subscribed := Function.update_self ..
  have waits {other : Nat} (waiting : ((subscriber.subscribe node fd).stage other).connecting) :
      other ≠ node ∧ (subscriber.stage other).connecting = true := by
    by_cases same : other = node
    · rw [same, own] at waiting
      cases waiting
    · exact ⟨same, stages same ▸ waiting⟩
  exact { wired with
    polled := wired.polled.unregisterNode.registerNode
    placed := by
      intro other entry found
      rw [wired.subscribe_fdToNode] at found
      split at found
      · rename_i same
        rw [← Option.some.inj found, same]
        exact held
      · exact wired.placed found
    waits := by
      intro other waiter found
      rw [wired.subscribe_fdToNode] at found
      split at found
      · cases Option.some.inj found
      · rename_i elsewhere
        have apart : waiter ≠ node := by
          rintro rfl
          exact elsewhere (Option.some.inj ((wired.placed found).symm.trans held))
        rw [stages apart, wired.waits found]
    serves := by
      intro other server found
      rw [wired.subscribe_fdToNode] at found
      split at found
      · cases Option.some.inj found
        exact own
      · by_cases same : server = node
        · rw [same, own]
        · rw [stages same, wired.serves found]
    owner := by
      intro other owns
      refine ⟨(wired.owner owns).1, ?_⟩
      by_cases same : other = node
      · rw [same, own]
        rfl
      · rw [stages same, (wired.owner owns).2]
    unread := fun waiting => wired.unread (waits waiting).2 }

theorem own (wired : subscriber.Wired) (held : subscriber.files.fdOf node = some fd)
    (idle : (subscriber.stage node).connecting = false) :
    { subscriber with redisNode := some node }.Wired :=
  { wired with owner := fun owns => Option.some.inj owns ▸ ⟨⟨fd, held⟩, idle⟩ }

theorem close (wired : subscriber.Wired)
    (found : subscriber.sc.fdToNode fd = some (.redis node)) :
    { subscriber with
      stage := Function.update subscriber.stage node .closed
      sc := subscriber.sc.unregisterNode fd }.Wired := by
  have kept {other : Nat} {entry : SubscriberNode}
      (there : (subscriber.sc.unregisterNode fd).fdToNode other = some entry) :
      other ≠ fd ∧ subscriber.sc.fdToNode other = some entry :=
    wired.polled.unregisterNode_eq_some.mp there
  have stages {other : Nat} {entry : SubscriberNode}
      (there : (subscriber.sc.unregisterNode fd).fdToNode other = some entry) :
      Function.update subscriber.stage node .closed entry.node = subscriber.stage entry.node := by
    refine Function.update_of_ne ?_ ..
    intro same
    have here : subscriber.files.fdOf node = some fd := wired.placed found
    have elsewhere : subscriber.files.fdOf node = some other := same ▸ wired.placed (kept there).2
    exact (kept there).1 (Option.some.inj (elsewhere.symm.trans here))
  have waits {other : Nat}
      (waiting : (Function.update subscriber.stage node .closed other).connecting = true) :
      (subscriber.stage other).connecting = true := by
    rw [Function.update_apply] at waiting
    split at waiting
    · cases waiting
    · exact waiting
  exact { wired with
    polled := wired.polled.unregisterNode
    placed := fun there => wired.placed (kept there).2
    waits := fun there =>
      (congrArg RedisNodeStage.connecting (stages there)).trans (wired.waits (kept there).2)
    serves := fun there => (stages there).trans (wired.serves (kept there).2)
    owner := by
      intro other owns
      refine ⟨(wired.owner owns).1, ?_⟩
      change (Function.update subscriber.stage node .closed other).connecting = false
      rw [Function.update_apply]
      split
      · rfl
      · exact (wired.owner owns).2
    unread := fun waiting => wired.unread (waits waiting) }

theorem publish (wired : subscriber.Wired) :
    { subscriber with
      inbox := subscriber.deliver
      published := subscriber.published + 1 }.Wired where
  polled := wired.polled
  placed := wired.placed
  waits := wired.waits
  serves := wired.serves
  owner := wired.owner
  unread := by
    intro node waiting
    refine (if_neg fun stage => ?_).trans (wired.unread waiting)
    rw [stage] at waiting
    cases waiting
  apart := by
    intro node
    change (subscriber.deliver node).Nodup
    unfold deliver
    split
    · rw [← List.concat_eq_append, List.nodup_concat]
      exact ⟨fun member => Nat.lt_irrefl _ (wired.told member), wired.apart node⟩
    · exact wired.apart node
  told := by
    intro node message member
    change message ∈ subscriber.deliver node at member
    unfold deliver at member
    split at member
    · rcases List.mem_append.mp member with before | last
      · exact Nat.lt_succ_of_lt (wired.told before)
      · exact List.mem_singleton.mp last ▸ Nat.lt_succ_self _
    · exact Nat.lt_succ_of_lt (wired.told member)
  toldHandled member := Nat.lt_succ_of_lt (wired.toldHandled member)

theorem handleMessage {message : Nat} {rest : List Nat} (wired : subscriber.Wired)
    (read : subscriber.inbox node = message :: rest) :
    { subscriber with
      inbox := Function.update subscriber.inbox node rest
      handled := subscriber.handled ++ [message] }.Wired := by
  have inboxes (other : Nat) : (Function.update subscriber.inbox node rest other).Sublist
      (subscriber.inbox other) := by
    rw [Function.update_apply]
    split
    · rename_i same
      rw [same, read]
      exact List.sublist_cons_self _ _
    · exact List.Sublist.refl _
  exact { wired with
    unread := fun waiting => List.sublist_nil.mp (wired.unread waiting ▸ inboxes _)
    apart := fun other => (wired.apart other).sublist (inboxes other)
    told := fun member => wired.told ((inboxes _).subset member)
    toldHandled := by
      intro other member
      rcases List.mem_append.mp member with before | last
      · exact wired.toldHandled before
      · rw [List.mem_singleton.mp last]
        exact wired.told (read ▸ List.mem_cons_self) }

theorem destroy (wired : subscriber.Wired) (held : subscriber.files.fdOf node = some fd)
    (idle : (subscriber.stage node).connecting = false) (loose : subscriber.redisNode ≠ some node)
    (gone : subscriber.registered node = false) :
    { subscriber with
      files := subscriber.files.closeFd fd
      sc := subscriber.sc.closeFd fd }.Wired := by
  have free : subscriber.sc.fdToNode fd = none := by
    cases found : subscriber.sc.fdToNode fd with
    | none => rfl
    | some entry =>
        have same := subscriber.files.distinct (wired.placed found) held
        cases entry with
        | coEvent waiter =>
            cases same
            exact nomatch idle.symm.trans (wired.waits found)
        | redis server =>
            cases same
            exact (Bool.eq_false_iff.mp gone (registered_eq_true.mpr ⟨fd, held, found⟩)).elim
  exact { wired with
    polled := wired.polled.closeFd free
    placed := by
      intro other entry found
      refine DescriptorTable.fdOf_closeFd.mpr ⟨wired.placed found, ?_⟩
      rintro rfl
      exact nomatch free.symm.trans found
    owner := by
      intro other owns
      obtain ⟨⟨own, has⟩, stage⟩ := wired.owner owns
      refine ⟨⟨own, DescriptorTable.fdOf_closeFd.mpr ⟨has, ?_⟩⟩, stage⟩
      rintro rfl
      exact loose (subscriber.files.distinct has held ▸ owns) }

theorem step (wired : subscriber.Wired) (taken : subscriber.step label = some next) :
    next.Wired := by
  cases moves_of_step taken with
  | restart free => exact wired.unregisterOwn.connect free rfl
  | @restarted node own held stage =>
      have own : (subscriber.subscribe node own).stage node = .subscribed :=
        Function.update_self ..
      exact (wired.subscribe held).own held (own ▸ rfl)
  | eof free held watches =>
      rw [wired.polled.watched] at watches
      exact (wired.close watches).connect free rfl
  | reconnected held stage => exact wired.subscribe held
  | publish => exact wired.publish
  | handleMessage watches read => exact wired.handleMessage read
  | destroy held idle loose gone => exact wired.destroy held idle loose gone

theorem redis_of_connect {stage : RedisNodeStage} {other : Nat} (wired : subscriber.Wired)
    (free : ¬subscriber.files.InUse fd)
    (found : (subscriber.connect fd free stage).sc.fdToNode other = some (.redis node)) :
    subscriber.sc.fdToNode other = some (.redis node) ∧
      (subscriber.connect fd free stage).inbox node = subscriber.inbox node := by
  rw [wired.connect_fdToNode] at found
  split at found
  · cases Option.some.inj found
  · have older : node ≠ subscriber.files.next := wired.ne_next found
    exact ⟨found, Function.update_of_ne older ..⟩

theorem redis_of_unregisterOwn {other : Nat} (wired : subscriber.Wired)
    (found : subscriber.unregisterOwn.fdToNode other = some (.redis node)) :
    subscriber.sc.fdToNode other = some (.redis node) := by
  unfold RedisSubscriber.unregisterOwn at found
  split at found
  · exact (wired.polled.unregisterNode_eq_some.mp found).2
  · exact found

end Wired

namespace Single

theorem start : RedisSubscriber.start.Single where
  toWired := .start
  owned _ _ found := nomatch found
  once := List.nodup_nil
  unhandled found := nomatch found

/-- Steps that register no node and handle no message. -/
theorem of_kept (single : subscriber.Single) (wired : next.Wired)
    (kept : ∀ {fd node}, next.sc.fdToNode fd = some (.redis node) →
      subscriber.sc.fdToNode fd = some (.redis node) ∧ next.inbox node = subscriber.inbox node)
    (own : next.redisNode = subscriber.redisNode) (log : next.handled = subscriber.handled) :
    next.Single where
  toWired := wired
  owned fd node found := own ▸ single.owned fd node (kept found).1
  once := log ▸ single.once
  unhandled found member :=
    log ▸ single.unhandled (kept found).1 ((kept found).2 ▸ member)

theorem step (single : subscriber.Single) (met : subscriber.LeavesOne label)
    (taken : subscriber.step label = some next) : next.Single := by
  have wired := single.toWired.step taken
  cases moves_of_step taken with
  | restart free =>
      refine single.of_kept wired (fun found => ?_) rfl rfl
      obtain ⟨older, inbox⟩ := single.unregisterOwn.redis_of_connect free found
      exact ⟨single.redis_of_unregisterOwn older, inbox⟩
  | @eof node own fd free held watches =>
      rw [single.polled.watched] at watches
      refine single.of_kept wired (fun found => ?_) rfl rfl
      obtain ⟨older, inbox⟩ := (single.close watches).redis_of_connect free found
      exact ⟨(single.polled.unregisterNode_eq_some.mp older).2, inbox⟩
  | destroy held idle loose gone => exact single.of_kept wired (fun found => ⟨found, rfl⟩) rfl rfl
  | reconnected held stage => exact met.elim
  | @restarted node own held stage =>
      have unread : subscriber.inbox node = [] := single.unread (stage ▸ rfl)
      have sole {fd server : Nat}
          (found : (subscriber.subscribe node own).sc.fdToNode fd = some (.redis server)) :
          server = node := by
        rw [single.subscribe_fdToNode] at found
        split at found
        · cases Option.some.inj found
          rfl
        · have registered := registered_eq_true.mpr ⟨fd, single.placed found, found⟩
          exact (met (by rw [single.owned fd server found]; exact registered)).elim
      exact {
        toWired := wired
        owned := fun _ _ found => congrArg some (sole found).symm
        once := single.once
        unhandled := by
          intro fd server message found member
          cases sole found
          exact nomatch (show message ∈ [] from unread ▸ member) }
  | publish =>
      exact {
        toWired := wired
        owned := single.owned
        once := single.once
        unhandled := by
          intro fd node message found member old
          change message ∈ subscriber.deliver node at member
          rw [deliver, if_pos (single.serves found)] at member
          rcases List.mem_append.mp member with before | last
          · exact single.unhandled found before old
          · exact Nat.lt_irrefl _ (List.mem_singleton.mp last ▸ single.toldHandled old) }
  | @handleMessage node own message rest watches read =>
      rw [single.polled.watched] at watches
      have fresh : message ∉ subscriber.handled :=
        single.unhandled watches (read ▸ List.mem_cons_self)
      exact {
        toWired := wired
        owned := single.owned
        once := by
          rw [← List.concat_eq_append, List.nodup_concat]
          exact ⟨fresh, single.once⟩
        unhandled := by
          intro fd server other found member
          have same : server = node :=
            Option.some.inj ((single.owned _ _ found).symm.trans (single.owned _ _ watches))
          subst same
          have later : other ∈ rest := by simpa using member
          have apart := single.apart server
          rw [read, List.nodup_cons] at apart
          simp only [List.mem_append, List.mem_singleton, not_or]
          refine ⟨single.unhandled found (read ▸ List.mem_cons_of_mem _ later), ?_⟩
          rintro rfl
          exact apart.1 later }

theorem oneSubscriber (single : subscriber.Single) : subscriber.OneSubscriber where
  single fd other node second found later := by
    have same : node = second :=
      Option.some.inj ((single.owned _ _ found).symm.trans (single.owned _ _ later))
    subst same
    exact Option.some.inj ((single.placed found).symm.trans (single.placed later))
  owned := single.owned
  once := single.once

/-- A step behind which the property still holds meets the condition. -/
theorem leavesOne (single : subscriber.Single) (taken : subscriber.step label = some next)
    (one : next.OneSubscriber) : subscriber.LeavesOne label := by
  cases moves_of_step taken with
  | restart | eof | publish | handleMessage | destroy => trivial
  | @reconnected node own held stage =>
      have found : (subscriber.subscribe node own).sc.fdToNode own = some (.redis node) := by
        rw [single.subscribe_fdToNode, if_pos rfl]
      have idle := (single.owner (one.owned own node found)).2
      rw [stage] at idle
      cases idle
  | @restarted node own held stage =>
      intro registered
      obtain ⟨old, -, registered⟩ := (Option.any_eq_true _ _).mp registered
      obtain ⟨fd, place, found⟩ := registered_eq_true.mp registered
      have elsewhere : fd ≠ own := by
        rintro rfl
        rw [subscriber.files.distinct place held] at found
        exact nomatch stage.symm.trans (single.serves found)
      have first : (subscriber.subscribe node own).sc.fdToNode own = some (.redis node) := by
        rw [single.subscribe_fdToNode, if_pos rfl]
      have second : (subscriber.subscribe node own).sc.fdToNode fd = some (.redis old) := by
        rw [single.subscribe_fdToNode, if_neg elsewhere, found]
      exact elsewhere (one.single _ _ _ _ second first)

end Single

/-- One node at a time hears the commands exactly in the runs in which no reconnect comes to its
end, and no restart does while the node before it is still in the loop. -/
theorem oneSubscriber_iff {final : RedisSubscriber} {labels : List SubscriberLabel}
    (run : LabelledRun.exec step start labels = some final) :
    LabelledRun.Always step OneSubscriber start labels ↔
      LabelledRun.Meets step LeavesOne start labels :=
  LabelledRun.always_iff_meets (fun _ => Single.oneSubscriber)
    (fun _ _ _ single met taken => single.step met taken)
    (fun _ _ _ single taken one => single.leavesOne taken one) Single.start run

/-- A restart behind a message, the old node being destroyed. -/
def inOrder : List SubscriberLabel :=
  [.restart 5, .restarted 0, .publish, .handleMessage 0, .restart 6, .restarted 1, .destroy 0]

theorem oneSubscriber_inOrder : LabelledRun.Always step OneSubscriber start inOrder := by
  obtain ⟨final, run⟩ := Option.isSome_iff_exists.mp
    (show (LabelledRun.exec step start inOrder).isSome by decide)
  exact (oneSubscriber_iff run).mpr (by decide)

/-- The server disconnects, the node replaces itself, and the owner restarts the old one. -/
theorem oneSubscriber_fails :
    ¬∀ labels final, LabelledRun.exec step start labels = some final → final.OneSubscriber := by
  intro all
  let labels : List SubscriberLabel := [.restart 5, .restarted 0, .eof 0 6, .reconnected 1,
    .restart 7, .restarted 2, .publish, .handleMessage 1, .handleMessage 2]
  have twice : (LabelledRun.exec step start labels).map handled = some [0, 0] := by decide
  obtain ⟨final, run, handled⟩ := Option.map_eq_some_iff.mp twice
  exact absurd (all labels final run).once (by rw [handled]; decide)

end RedisSubscriber

end AutoDrop
