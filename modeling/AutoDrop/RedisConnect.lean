import AutoDrop.LabelledRun
import Mathlib.Data.List.Nodup

/-!
The nodes that `create_redis_event_node` and the reconnect in
`AD_REDIS_EVENT_NODE::handleEvent` make, over attempts with any outcome. Both suspend in the
constructor of the new node, so the end of an attempt is a step of its own. The nodes are
numbered as they are made; a command on a null context is the end of the process.
-/

namespace AutoDrop

/-- How `prepare_redis` fares, one for each of its branches. -/
inductive ConnectOutcome
  | noContext
  | refused
  | noReply
  | authError
  | success
deriving DecidableEq

/-- The entries of `g_sb_map`, which stand for their callbacks. -/
inductive SubscribeMap
  | savePly
  | currentState
  | gateCtrl
deriving DecidableEq

structure RedisEventNode where
  -- whether m_redis is set
  redis : Bool
  subscribedCallbacks : List (String × SubscribeMap)
deriving DecidableEq

structure RedisConnect where
  made : List RedisEventNode
  -- the nodes that are registered in the event loop
  inLoop : List Nat
  redisNode : Option Nat
  restarting : Nat
  -- the nodes whose handleEvent waits for a new one
  reconnecting : List Nat
  nullCommand : Bool
  lastFailed : Bool

inductive RedisConnectLabel
  | restart
  | restarted (outcome : ConnectOutcome)
  | eof (node : Nat)
  | reconnected (node : Nat) (outcome : ConnectOutcome)

def SubscribeMap.keyFunc : SubscribeMap → String → String
  | savePly, serial => "save_ply_" ++ serial
  | currentState, serial => "current_state_" ++ serial
  | gateCtrl, serial => "gate_ctrl_" ++ serial

def gSbMap : List SubscribeMap := [.savePly, .currentState, .gateCtrl]

/-- Whether there is a context. -/
def prepareRedis : ConnectOutcome → Bool
  | .noContext => false
  | .refused => false
  | .noReply => false
  | .authError => false
  | .success => true

namespace RedisEventNode

/-- The constructor. -/
def create (outcome : ConnectOutcome) : RedisEventNode := ⟨prepareRedis outcome, []⟩

/-- `none` is `redisCommand` with a null context. -/
def registerSubscribedCallback (node : RedisEventNode) (entry : String × SubscribeMap) :
    Option RedisEventNode :=
  if node.redis then
    some { node with
      subscribedCallbacks := node.subscribedCallbacks.filter (·.1 ≠ entry.1) ++ [entry] }
  else none

def channels (serial : String) : List (String × SubscribeMap) :=
  gSbMap.map fun pair => (pair.keyFunc serial, pair)

def createRedisEventNode (serial : String) (outcome : ConnectOutcome) : Option RedisEventNode :=
  (channels serial).foldlM registerSubscribedCallback (create outcome)

/-- The new node of `handleEvent`. -/
def reconnect (node : RedisEventNode) (outcome : ConnectOutcome) : Option RedisEventNode :=
  node.subscribedCallbacks.foldlM registerSubscribedCallback (create outcome)

variable {entries : List (String × SubscribeMap)} {outcome : ConnectOutcome} {serial : String}

theorem foldlM_register {node : RedisEventNode} (connected : node.redis = true)
    (nodup : ((node.subscribedCallbacks ++ entries).map Prod.fst).Nodup) :
    entries.foldlM registerSubscribedCallback node =
      some ⟨true, node.subscribedCallbacks ++ entries⟩ := by
  induction entries generalizing node with
  | nil =>
      rw [List.append_nil, ← connected]
      rfl
  | cons entry rest ih =>
      have fresh : node.subscribedCallbacks.filter (·.1 ≠ entry.1) =
          node.subscribedCallbacks := by
        apply List.filter_eq_self.mpr
        intro other member
        have apart : other.1 ≠ entry.1 := by
          rw [List.map_append, List.nodup_append] at nodup
          exact nodup.2.2 _ (List.mem_map_of_mem member) _ (by simp)
        simpa using apart
      have step : node.registerSubscribedCallback entry =
          some { node with subscribedCallbacks := node.subscribedCallbacks ++ [entry] } := by
        rw [registerSubscribedCallback, if_pos connected, fresh]
      rw [List.foldlM_cons, step]
      have apart : ((node.subscribedCallbacks ++ [entry] ++ rest).map Prod.fst).Nodup := by
        rwa [List.append_assoc]
      have onward := @ih { node with
        subscribedCallbacks := node.subscribedCallbacks ++ [entry] } connected apart
      simpa using onward

theorem foldlM_success (nodup : (entries.map Prod.fst).Nodup) :
    entries.foldlM registerSubscribedCallback (create .success) = some ⟨true, entries⟩ :=
  foldlM_register rfl nodup

theorem foldlM_failed (failed : outcome ≠ .success) (some : entries ≠ []) :
    entries.foldlM registerSubscribedCallback (create outcome) = none := by
  cases entries with
  | nil => exact absurd rfl some
  | cons entry rest =>
      have missing : (create outcome).redis = false := by
        cases outcome with
        | success => exact absurd rfl failed
        | noContext => rfl
        | refused => rfl
        | noReply => rfl
        | authError => rfl
      rw [List.foldlM_cons, registerSubscribedCallback, missing]
      rfl

theorem channels_nodup (serial : String) : ((channels serial).map Prod.fst).Nodup := by
  apply List.Nodup.of_map String.toList
  simp [channels, gSbMap, SubscribeMap.keyFunc]

theorem channels_ne_nil (serial : String) : channels serial ≠ [] := List.cons_ne_nil _ _

end RedisEventNode

namespace RedisConnect

open LabelledRun RedisEventNode

def start : RedisConnect where
  made := []
  inLoop := []
  redisNode := none
  restarting := 0
  reconnecting := []
  nullCommand := false
  lastFailed := false

/-- The end of an attempt, which registers the new node unless a command had no context. -/
def endAttempt (connect : RedisConnect) (outcome : ConnectOutcome)
    (created : Option RedisEventNode) (redisNode : Option Nat) : RedisConnect :=
  match created with
  | none => { connect with nullCommand := true, lastFailed := outcome ≠ .success }
  | some node =>
      { connect with
        made := connect.made ++ [node]
        inLoop := connect.inLoop ++ [connect.made.length]
        redisNode := redisNode
        lastFailed := outcome ≠ .success }

def stepGoing (serial : String) (connect : RedisConnect) :
    RedisConnectLabel → Option RedisConnect
  | .restart =>
      some { connect with
        inLoop := connect.inLoop.filter (some · ≠ connect.redisNode)
        restarting := connect.restarting + 1 }
  | .restarted outcome =>
      if 0 < connect.restarting then
        some ({ connect with restarting := connect.restarting - 1 }.endAttempt outcome
          (createRedisEventNode serial outcome) (some connect.made.length))
      else none
  | .eof node =>
      if node ∈ connect.inLoop then
        some { connect with
          inLoop := connect.inLoop.filter (· ≠ node)
          reconnecting := connect.reconnecting ++ [node] }
      else none
  | .reconnected node outcome =>
      if node ∈ connect.reconnecting then
        connect.made[node]?.map fun old =>
          { connect with reconnecting := connect.reconnecting.erase node }.endAttempt outcome
            (old.reconnect outcome) connect.redisNode
      else none

def step (serial : String) (connect : RedisConnect) (label : RedisConnectLabel) :
    Option RedisConnect :=
  if connect.nullCommand then none else connect.stepGoing serial label

/-- No command had a null context, and behind a failed attempt a node that is connected or
tries again has all the callbacks. -/
structure KeepsSubscriptions (serial : String) (connect : RedisConnect) : Prop where
  noNull : connect.nullCommand = false
  held : connect.lastFailed = true → ∃ id node, connect.made[id]? = some node ∧
    (id ∈ connect.inLoop ∧ node.redis = true ∨ id ∈ connect.reconnecting) ∧
      node.subscribedCallbacks = channels serial

def Succeeds : RedisConnectLabel → Prop
  | .restarted outcome => outcome = .success
  | .reconnected _ outcome => outcome = .success
  | .restart => True
  | .eof _ => True

instance : ∀ label, Decidable (Succeeds label)
  | .restarted outcome => inferInstanceAs (Decidable (outcome = .success))
  | .reconnected _ outcome => inferInstanceAs (Decidable (outcome = .success))
  | .restart => .isTrue trivial
  | .eof _ => .isTrue trivial

/-- What holds while every attempt succeeds: each node has all the callbacks. -/
structure Subscribed (serial : String) (connect : RedisConnect) : Prop where
  noNull : connect.nullCommand = false
  succeeded : connect.lastFailed = false
  complete : ∀ node ∈ connect.made, node = ⟨true, channels serial⟩

variable {serial : String} {connect next : RedisConnect} {label : RedisConnectLabel}

theorem Subscribed.endAttempt (subscribed : Subscribed serial connect) (redisNode : Option Nat) :
    Subscribed serial (connect.endAttempt .success (some ⟨true, channels serial⟩) redisNode) where
  noNull := subscribed.noNull
  succeeded := rfl
  complete := by
    intro node member
    rcases List.mem_append.mp member with before | new
    · exact subscribed.complete node before
    · exact List.mem_singleton.mp new

theorem Subscribed.step (subscribed : Subscribed serial connect) (succeeds : Succeeds label)
    (taken : connect.step serial label = some next) : Subscribed serial next := by
  rw [RedisConnect.step, if_neg (by simp [subscribed.noNull])] at taken
  cases label with
  | restart =>
      obtain rfl := Option.some.inj taken
      exact ⟨subscribed.noNull, subscribed.succeeded, subscribed.complete⟩
  | restarted outcome =>
      obtain rfl : outcome = .success := succeeds
      simp only [stepGoing, createRedisEventNode, foldlM_success (channels_nodup serial),
        Option.ite_none_right_eq_some, Option.some.injEq] at taken
      obtain ⟨-, rfl⟩ := taken
      apply Subscribed.endAttempt
      exact ⟨subscribed.noNull, subscribed.succeeded, subscribed.complete⟩
  | eof node =>
      simp only [stepGoing, Option.ite_none_right_eq_some, Option.some.injEq] at taken
      obtain ⟨-, rfl⟩ := taken
      exact ⟨subscribed.noNull, subscribed.succeeded, subscribed.complete⟩
  | reconnected node outcome =>
      obtain rfl : outcome = .success := succeeds
      simp only [stepGoing, Option.ite_none_right_eq_some, Option.map_eq_some_iff] at taken
      obtain ⟨-, old, known, rfl⟩ := taken
      obtain rfl := subscribed.complete old (List.mem_of_getElem? known)
      rw [reconnect, foldlM_success (channels_nodup serial)]
      apply Subscribed.endAttempt
      exact ⟨subscribed.noNull, subscribed.succeeded, subscribed.complete⟩

theorem Subscribed.keeps (subscribed : Subscribed serial connect) :
    KeepsSubscriptions serial connect where
  noNull := subscribed.noNull
  held := by
    intro failed
    rw [subscribed.succeeded] at failed
    cases failed

/-- The first channel of a new node without a connection is one too many. -/
theorem Subscribed.succeeds (subscribed : Subscribed serial connect)
    (taken : connect.step serial label = some next) (kept : KeepsSubscriptions serial next) :
    Succeeds label := by
  rw [RedisConnect.step, if_neg (by simp [subscribed.noNull])] at taken
  cases label with
  | restart => trivial
  | restarted outcome =>
      by_contra failed
      simp only [stepGoing, createRedisEventNode, foldlM_failed failed (channels_ne_nil serial),
        Option.ite_none_right_eq_some, Option.some.injEq] at taken
      obtain ⟨-, rfl⟩ := taken
      cases kept.noNull
  | eof node => trivial
  | reconnected node outcome =>
      by_contra failed
      simp only [stepGoing, Option.ite_none_right_eq_some, Option.map_eq_some_iff] at taken
      obtain ⟨-, old, known, rfl⟩ := taken
      obtain rfl := subscribed.complete old (List.mem_of_getElem? known)
      rw [reconnect, foldlM_failed failed (channels_ne_nil serial)] at kept
      cases kept.noNull

/-- The subscriptions outlast every attempt to connect exactly where none fails: the first failed
one ends the program at its SUBSCRIBE. -/
theorem keepsSubscriptions_iff (labels : List RedisConnectLabel) {final : RedisConnect}
    (run : exec (step serial) start labels = some final) :
    Always (step serial) (KeepsSubscriptions serial) start labels ↔
      Meets (step serial) (fun _ => Succeeds) start labels := by
  have initial : Subscribed serial start := ⟨rfl, rfl, fun node member => nomatch member⟩
  refine always_iff_meets ?_ ?_ ?_ initial run
  · intro connect subscribed
    exact subscribed.keeps
  · intro connect label next subscribed succeeds taken
    exact subscribed.step succeeds taken
  · intro connect label next subscribed taken kept
    exact subscribed.succeeds taken kept

/-- The server goes away twice and comes back. -/
theorem keepsSubscriptions_back :
    Always (step "7") (KeepsSubscriptions "7") start
      [.restart, .restarted .success, .eof 0, .reconnected 0 .success, .eof 1,
        .reconnected 1 .success] :=
  (keepsSubscriptions_iff _ rfl).mpr (by decide)

/-- A restart, or a reconnect, finds the server gone. -/
theorem keepsSubscriptions_fails :
    (exec (step "7") start [.restart, .restarted .refused]).map nullCommand = some true ∧
    (exec (step "7") start [.restart, .restarted .success, .eof 0,
      .reconnected 0 .authError]).map nullCommand = some true ∧
    ¬∀ labels final, exec (step "7") start labels = some final →
      KeepsSubscriptions "7" final := by
  refine ⟨rfl, rfl, ?_⟩
  intro all
  have kept := all [.restart, .restarted .refused] _ rfl
  cases kept.noNull

end RedisConnect

end AutoDrop
