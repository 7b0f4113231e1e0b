import AutoDrop.EventSc
import AutoDrop.LabelledRun

/-!
What the calls of `registerNode`, `unregisterNode` and `stopEventLoop` do for nodes, several
of which may have one descriptor. `removals` keeps the node that each call of
`unregisterNode` was made for, with the node whose registration it removed.
-/

namespace AutoDrop

open LabelledRun

variable {Node : Type*}

def EventSc.stopEventLoop (sc : EventSc Node) : EventSc Node where
  fdToNode := fun _ => none
  epoll := fun fd => sc.epoll fd && (sc.fdToNode fd).isNone

theorem EventSc.Polled.stopEventLoop {sc : EventSc Node} (polled : sc.Polled) :
    sc.stopEventLoop.Polled := by
  intro fd
  simp only [EventSc.stopEventLoop, polled fd]
  cases sc.fdToNode fd <;> rfl

structure NodeRegistry (Node : Type*) where
  sc : EventSc Node
  removals : List (Node × Node)

inductive NodeRegistryLabel (Node : Type*)
  | registerNode (node : Node)
  | unregisterNode (node : Node)
  | stopEventLoop

namespace NodeRegistry

def start : NodeRegistry Node :=
  ⟨EventSc.start, []⟩

variable (getFd : Node → Nat)

def unregisterNode (registry : NodeRegistry Node) (node : Node) : NodeRegistry Node :=
  let left := registry.sc.unregisterNode (getFd node)
  { sc := left
    removals :=
      match registry.sc.fdToNode (getFd node), left.fdToNode (getFd node) with
      | some removed, none => (node, removed) :: registry.removals
      | _, _ => registry.removals }

def step (registry : NodeRegistry Node) : NodeRegistryLabel Node → Option (NodeRegistry Node)
  | .registerNode node => some { registry with sc := registry.sc.registerNode (getFd node) node }
  | .unregisterNode node => some (registry.unregisterNode getFd node)
  | .stopEventLoop => some { registry with sc := registry.sc.stopEventLoop }

/-- The keys of `m_fdToNode` are the epoll set, and each removal was of the node's own
registration. -/
structure RemovesOwn (registry : NodeRegistry Node) : Prop where
  keys : ∀ fd, (registry.sc.fdToNode fd).isSome = registry.sc.epoll fd
  own : ∀ removal ∈ registry.removals, removal.2 = removal.1

/-- Where another node is registered with the descriptor, no node with it is unregistered. -/
def SparesOthers (registry : NodeRegistry Node) : NodeRegistryLabel Node → Prop
  | .unregisterNode node => ∀ other, registry.sc.fdToNode (getFd node) = some other → other = node
  | _ => True

variable {getFd : Node → Nat} {registry next : NodeRegistry Node}
  {label : NodeRegistryLabel Node}

theorem RemovesOwn.polled (removesOwn : RemovesOwn registry) : registry.sc.Polled :=
  fun fd => (removesOwn.keys fd).symm

theorem start_removesOwn : RemovesOwn (start : NodeRegistry Node) :=
  ⟨fun _ => rfl, by simp [start]⟩

theorem step_polled (polled : registry.sc.Polled)
    (taken : step getFd registry label = some next) : next.sc.Polled := by
  cases label with
  | registerNode node =>
      obtain rfl := Option.some.inj taken
      exact polled.registerNode
  | unregisterNode node =>
      obtain rfl := Option.some.inj taken
      exact polled.unregisterNode
  | stopEventLoop =>
      obtain rfl := Option.some.inj taken
      exact polled.stopEventLoop

theorem removals_unregisterNode (polled : registry.sc.Polled) (node : Node) :
    (registry.unregisterNode getFd node).removals =
      (registry.sc.fdToNode (getFd node)).toList.map (node, ·) ++ registry.removals := by
  have gone : (registry.sc.unregisterNode (getFd node)).fdToNode (getFd node) = none := by
    rw [polled.fdToNode_unregisterNode, if_pos rfl]
  simp only [unregisterNode, gone]
  cases registry.sc.fdToNode (getFd node) with
  | none => rfl
  | some removed => rfl

theorem unregisterNode_own_iff (removesOwn : RemovesOwn registry) (node : Node) :
    (∀ removal ∈ (registry.unregisterNode getFd node).removals, removal.2 = removal.1) ↔
      SparesOthers getFd registry (.unregisterNode node) := by
  rw [removals_unregisterNode removesOwn.polled, SparesOthers, List.forall_mem_append,
    and_iff_left removesOwn.own]
  simp

theorem step_removesOwn (removesOwn : RemovesOwn registry)
    (spares : SparesOthers getFd registry label)
    (taken : step getFd registry label = some next) : RemovesOwn next := by
  refine ⟨fun fd => (step_polled removesOwn.polled taken fd).symm, ?_⟩
  cases label with
  | registerNode node =>
      obtain rfl := Option.some.inj taken
      exact removesOwn.own
  | unregisterNode node =>
      obtain rfl := Option.some.inj taken
      exact (unregisterNode_own_iff removesOwn node).mpr spares
  | stopEventLoop =>
      obtain rfl := Option.some.inj taken
      exact removesOwn.own

theorem spares_of_step (removesOwn : RemovesOwn registry)
    (taken : step getFd registry label = some next) (after : RemovesOwn next) :
    SparesOthers getFd registry label := by
  cases label with
  | registerNode | stopEventLoop => trivial
  | unregisterNode node =>
      obtain rfl := Option.some.inj taken
      exact (unregisterNode_own_iff removesOwn node).mp after.own

/-- A run removes only what was asked for, exactly if no node is unregistered while another
one with its descriptor is registered. -/
theorem always_removesOwn_iff (getFd : Node → Nat) (labels : List (NodeRegistryLabel Node))
    (final : NodeRegistry Node) (run : exec (step getFd) start labels = some final) :
    Always (step getFd) RemovesOwn start labels ↔
      Meets (step getFd) (SparesOthers getFd) start labels :=
  always_iff_meets (fun _ removesOwn => removesOwn)
    (fun _ _ _ removesOwn spares taken => step_removesOwn removesOwn spares taken)
    (fun _ _ _ removesOwn taken after => spares_of_step removesOwn taken after)
    start_removesOwn run

theorem reachable_polled (getFd : Node → Nat)
    (reached : Reachable (step getFd) start registry) : registry.sc.Polled := by
  have preserved : ∀ (before : NodeRegistry Node) label after, before.sc.Polled →
      step getFd before label = some after → after.sc.Polled :=
    fun _ _ _ polled taken => step_polled polled taken
  refine invariant_of_reachable ?_ preserved reached
  exact start_removesOwn.polled

theorem always_removesOwn_twice :
    Always (step fun _ => 5) RemovesOwn start
      [.registerNode true, .unregisterNode true, .unregisterNode true] := by
  refine (always_removesOwn_iff (fun _ => 5) _ _ rfl).mpr ?_
  simp [Meets, SparesOthers, step, start, EventSc.start, EventSc.registerNode, unregisterNode,
    EventSc.unregisterNode]

/-- The second node with a descriptor is refused, and its end takes the first one away. -/
theorem removesOwn_fails :
    ∃ registry : NodeRegistry Bool, exec (step fun _ => 5) start
        [.registerNode true, .registerNode false, .unregisterNode false] = some registry ∧
      registry.removals = [(false, true)] ∧ registry.sc.fdToNode 5 = none ∧
      ¬RemovesOwn registry :=
  ⟨_, rfl, rfl, rfl, fun removesOwn => absurd (removesOwn.own (false, true) (by decide)) (by decide)⟩

end NodeRegistry

end AutoDrop
