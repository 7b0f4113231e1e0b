import Mathlib.Algebra.Order.Group.Abs
import Mathlib.Data.List.Perm.Basic
import Mathlib.Logic.Relation

/-!
A walk along sorted items that goes on while the next item is near. Where it ends, the items it
has passed are those that the first one reaches by short hops, in whatever order they came.
-/

namespace GapChain

variable {P G : Type*} [AddCommGroup G] [LinearOrder G]

/-- The last item of the walk, from an item at `tmp` that the walk has come to. -/
def chainEnd (position : P → G) (gap : G) (last : P) : List P → P
  | [] => last
  | next :: rest =>
      if position next - position last < gap then chainEnd position gap next rest else last

/-- Both are items, nearer to each other than the gap. -/
def Hop (position : P → G) (gap : G) (items : List P) (a b : P) : Prop :=
  a ∈ items ∧ b ∈ items ∧ |position a - position b| < gap

def Reaches (position : P → G) (gap : G) (items : List P) : P → P → Prop :=
  Relation.ReflTransGen (Hop position gap items)

variable {position : P → G} {gap : G} {items rest : List P} {first last : P}

theorem Hop.of_perm {others : List P} (same : items.Perm others) {a b : P}
    (hop : Hop position gap items a b) : Hop position gap others a b :=
  ⟨same.mem_iff.mp hop.1, same.mem_iff.mp hop.2.1, hop.2.2⟩

theorem Reaches.of_perm {others : List P} (same : items.Perm others) {a b : P}
    (reaches : Reaches position gap items a b) : Reaches position gap others a b := by
  induction reaches with
  | refl => exact .refl
  | tail _ hop ih => exact ih.tail (hop.of_perm same)

theorem chainEnd_mem (rest : List P) (last : P) :
    chainEnd position gap last rest ∈ last :: rest := by
  induction rest generalizing last with
  | nil => exact List.mem_cons_self
  | cons next rest ih =>
    rw [chainEnd]
    split
    · exact List.mem_cons_of_mem _ (ih next)
    · exact List.mem_cons_self

theorem le_chainEnd (sorted : (last :: rest).Pairwise fun a b => position a ≤ position b) :
    position last ≤ position (chainEnd position gap last rest) := by
  rcases List.mem_cons.mp (@chainEnd_mem _ _ _ _ position gap rest last) with same | later
  · rw [same]
  · exact (List.pairwise_cons.mp sorted).1 _ later

variable [IsOrderedAddMonoid G]

/-- Each item that the walk has passed is reached by hops. -/
theorem reaches_of_le (sorted : (last :: rest).Pairwise fun a b => position a ≤ position b)
    (inside : last :: rest ⊆ items) (positive : 0 < gap) {item : P} (member : item ∈ last :: rest)
    (passed : position item ≤ position (chainEnd position gap last rest)) :
    Reaches position gap items last item := by
  induction rest generalizing last with
  | nil =>
    rw [List.mem_singleton.mp member]
    exact .refl
  | cons next rest ih =>
    obtain ⟨first, sorted⟩ := List.pairwise_cons.mp sorted
    obtain ⟨here, there⟩ := List.cons_subset.mp inside
    rcases List.mem_cons.mp member with rfl | member
    · exact .refl
    rw [chainEnd] at passed
    split at passed
    · next near =>
      have hop : Hop position gap items last next := by
        refine ⟨here, there List.mem_cons_self, ?_⟩
        rwa [abs_sub_comm, abs_of_nonneg (sub_nonneg.mpr (first next List.mem_cons_self))]
      exact .head hop (ih sorted there member passed)
    · have level : position item = position last := le_antisymm passed (first item member)
      refine .single ⟨here, there member, ?_⟩
      rwa [level, sub_self, abs_zero]

/-- Behind the end of the walk the next item is a gap away. -/
theorem gap_of_lt (sorted : (last :: rest).Pairwise fun a b => position a ≤ position b) {item : P}
    (member : item ∈ last :: rest)
    (behind : position (chainEnd position gap last rest) < position item) :
    gap ≤ position item - position (chainEnd position gap last rest) := by
  induction rest generalizing last with
  | nil =>
    rw [List.mem_singleton.mp member] at behind
    exact absurd behind (lt_irrefl _)
  | cons next rest ih =>
    obtain ⟨first, later⟩ := List.pairwise_cons.mp sorted
    rw [chainEnd] at behind ⊢
    split at behind
    · next near =>
      rw [if_pos near]
      rcases List.mem_cons.mp member with rfl | member
      · have before : position item ≤ position (chainEnd position gap next rest) :=
          (first next List.mem_cons_self).trans (le_chainEnd later)
        exact absurd behind (not_lt.mpr before)
      · exact ih later member behind
    · next far =>
      rw [if_neg far]
      have nearest : position next ≤ position item := by
        rcases List.mem_cons.mp member with rfl | member
        · exact absurd behind (lt_irrefl _)
        · rcases List.mem_cons.mp member with rfl | member
          · exact le_rfl
          · exact (List.pairwise_cons.mp later).1 item member
      exact (not_lt.mp far).trans (sub_le_sub_right nearest _)

/-- The end of the walk bounds exactly the items that are reached by hops. -/
theorem le_chainEnd_iff (sorted : (first :: rest).Pairwise fun a b => position a ≤ position b)
    (positive : 0 < gap) {item : P} (member : item ∈ first :: rest) :
    position item ≤ position (chainEnd position gap first rest) ↔
      Reaches position gap (first :: rest) first item := by
  constructor
  · exact reaches_of_le sorted (List.Subset.refl _) positive member
  · intro reaches
    induction reaches with
    | refl => exact le_chainEnd sorted
    | @tail before item _ hop ih =>
      by_contra behind
      have beyond := gap_of_lt sorted hop.2.1 (not_le.mp behind)
      have far : gap ≤ position item - position before :=
        beyond.trans (sub_le_sub_left (ih hop.1) _)
      have near := (neg_lt_of_abs_lt hop.2.2)
      rw [neg_lt, neg_sub] at near
      exact absurd near (not_lt.mpr far)

end GapChain
