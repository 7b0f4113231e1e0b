import Mathlib.Logic.Function.Basic

/-!
The descriptors of an `AD_EVENT_SC`. `m_fdToNode` and the epoll set are changed together,
but the kernel takes a closed descriptor out of the epoll set alone. An event reaches the
node that `watched` tells.
-/

namespace AutoDrop

structure EventSc (Node : Type*) where
  fdToNode : Nat → Option Node
  epoll : Nat → Bool

namespace EventSc

variable {Node : Type*}

def start : EventSc Node where
  fdToNode := fun _ => none
  epoll := fun _ => false

def registerNode (sc : EventSc Node) (fd : Nat) (node : Node) : EventSc Node :=
  if (sc.fdToNode fd).isNone ∧ sc.epoll fd = false then
    { fdToNode := Function.update sc.fdToNode fd (some node)
      epoll := Function.update sc.epoll fd true }
  else sc

def unregisterNode (sc : EventSc Node) (fd : Nat) : EventSc Node :=
  if (sc.fdToNode fd).isSome ∧ sc.epoll fd = true then
    { fdToNode := Function.update sc.fdToNode fd none
      epoll := Function.update sc.epoll fd false }
  else sc

/-- What `close` does to the epoll set. -/
def closeFd (sc : EventSc Node) (fd : Nat) : EventSc Node :=
  { sc with epoll := Function.update sc.epoll fd false }

def watched (sc : EventSc Node) (fd : Nat) : Option Node :=
  if sc.epoll fd = true then sc.fdToNode fd else none

variable {sc : EventSc Node} {fd other : Nat} {node handler : Node}

theorem fdToNode_of_watched (watches : sc.watched fd = some node) :
    sc.fdToNode fd = some node := by
  unfold watched at watches
  split at watches
  · exact watches
  · cases watches

theorem watched_registerNode (watches : (sc.registerNode fd node).watched other = some handler) :
    other = fd ∧ handler = node ∨ sc.watched other = some handler := by
  unfold registerNode at watches
  split at watches
  · by_cases same : other = fd
    · simp only [watched, same, Function.update_self, ↓reduceIte, Option.some.injEq] at watches
      exact .inl ⟨same, watches.symm⟩
    · simp only [watched, Function.update_of_ne same] at watches
      exact .inr watches
  · exact .inr watches

theorem watched_unregisterNode :
    (sc.unregisterNode fd).watched other = some handler ↔
      other ≠ fd ∧ sc.watched other = some handler := by
  by_cases same : other = fd
  · subst other
    have gone : (sc.unregisterNode fd).watched fd = none := by
      unfold unregisterNode
      split
      · simp [watched]
      · rename_i kept
        unfold watched
        split
        · rename_i polled
          simpa [polled] using kept
        · rfl
    simp [gone]
  · unfold unregisterNode
    split
    · simp [watched, same]
    · simp [same]

theorem watched_closeFd :
    (sc.closeFd fd).watched other = some handler ↔
      other ≠ fd ∧ sc.watched other = some handler := by
  by_cases same : other = fd
  · simp [same, closeFd, watched]
  · simp [same, closeFd, watched]

/-- No descriptor was closed while it was registered. -/
def Polled (sc : EventSc Node) : Prop :=
  ∀ fd, sc.epoll fd = (sc.fdToNode fd).isSome

namespace Polled

theorem start : (start : EventSc Node).Polled := fun _ => rfl

theorem watched (polled : sc.Polled) : sc.watched fd = sc.fdToNode fd := by
  unfold EventSc.watched
  split
  · rfl
  · rename_i silent
    rw [polled, Bool.not_eq_true, Option.isSome_eq_false_iff, Option.isNone_iff_eq_none] at silent
    exact silent.symm

theorem fdToNode_registerNode (polled : sc.Polled) (free : sc.fdToNode fd = none) :
    (sc.registerNode fd node).fdToNode other =
      if other = fd then some node else sc.fdToNode other := by
  have silent : sc.epoll fd = false := by rw [polled, free, Option.isSome_none]
  rw [EventSc.registerNode, if_pos ⟨by rw [free, Option.isNone_none], silent⟩]
  exact Function.update_apply ..

theorem fdToNode_unregisterNode (polled : sc.Polled) :
    (sc.unregisterNode fd).fdToNode other = if other = fd then none else sc.fdToNode other := by
  unfold EventSc.unregisterNode
  split
  · exact Function.update_apply ..
  · rename_i kept
    rw [polled, and_self, Option.not_isSome_iff_eq_none] at kept
    split
    · rename_i same
      rw [same, kept]
    · rfl

theorem unregisterNode_eq_some (polled : sc.Polled) :
    (sc.unregisterNode fd).fdToNode other = some node ↔
      other ≠ fd ∧ sc.fdToNode other = some node := by
  rw [polled.fdToNode_unregisterNode, Option.ite_none_left_eq_some]

theorem registerNode (polled : sc.Polled) : (sc.registerNode fd node).Polled := by
  intro other
  unfold EventSc.registerNode
  split
  · simp only [Function.update_apply]
    split
    · rfl
    · exact polled other
  · exact polled other

theorem unregisterNode (polled : sc.Polled) : (sc.unregisterNode fd).Polled := by
  intro other
  unfold EventSc.unregisterNode
  split
  · simp only [Function.update_apply]
    split
    · rfl
    · exact polled other
  · exact polled other

theorem closeFd (polled : sc.Polled) (gone : sc.fdToNode fd = none) : (sc.closeFd fd).Polled := by
  intro other
  simp only [EventSc.closeFd, Function.update_apply]
  split
  · rename_i same
    rw [same, gone, Option.isSome_none]
  · exact polled other

end Polled

end EventSc

end AutoDrop
