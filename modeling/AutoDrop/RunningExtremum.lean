import Mathlib.Data.List.Basic
import Mathlib.Order.Lattice

/-!
A loop that keeps the best of the items it has seen: it looks only at the items that count,
and a later item replaces the kept one only if it is strictly larger. A minimum is a maximum
in the dual order.
-/

namespace RunningExtremum

variable {Item Best Value : Type*} [LinearOrder Value]

def keepLarger (counts : Item → Prop) [DecidablePred counts] (take : Item → Best)
    (size : Best → Value) (best : Best) (item : Item) : Best :=
  if counts item ∧ size best < size (take item) then take item else best

def runningMax (counts : Item → Prop) [DecidablePred counts] (take : Item → Best)
    (size : Best → Value) (start : Best) (items : List Item) : Best :=
  items.foldl (keepLarger counts take size) start

variable {counts : Item → Prop} [DecidablePred counts] {take : Item → Best} {size : Best → Value}
  {best : Best} {item : Item}

theorem size_best_le : size best ≤ size (keepLarger counts take size best item) := by
  unfold keepLarger
  split
  · rename_i larger
    exact larger.2.le
  · exact le_rfl

theorem size_item_le (counted : counts item) :
    size (take item) ≤ size (keepLarger counts take size best item) := by
  unfold keepLarger
  split
  · exact le_rfl
  · rename_i notLarger
    exact not_lt.mp fun larger => notLarger ⟨counted, larger⟩

section Fold

variable (counts take size) (start : Best)

theorem size_start_le (items : List Item) :
    size start ≤ size (runningMax counts take size start items) := by
  induction items generalizing start with
  | nil => exact le_rfl
  | cons first rest ih => exact size_best_le.trans (ih _)

theorem size_take_le {items : List Item} (member : item ∈ items) (counted : counts item) :
    size (take item) ≤ size (runningMax counts take size start items) := by
  induction items generalizing start with
  | nil => exact absurd member List.not_mem_nil
  | cons first rest ih =>
      rcases List.mem_cons.mp member with rfl | later
      · exact (size_item_le counted).trans (size_start_le counts take size _ rest)
      · exact ih _ later

theorem runningMax_cases (items : List Item) :
    runningMax counts take size start items = start ∨
      ∃ item ∈ items, counts item ∧ runningMax counts take size start items = take item := by
  induction items generalizing start with
  | nil => exact .inl rfl
  | cons first rest ih =>
      have step : runningMax counts take size start (first :: rest) =
          runningMax counts take size (keepLarger counts take size start first) rest := rfl
      rw [step]
      rcases ih (keepLarger counts take size start first) with
        kept | ⟨item, member, counted, taken⟩
      · rw [kept, keepLarger]
        split
        · rename_i larger
          exact .inr ⟨first, List.mem_cons_self, larger.1, rfl⟩
        · exact .inl rfl
      · exact .inr ⟨item, List.mem_cons_of_mem _ member, counted, taken⟩

theorem runningMax_of_le {items : List Item}
    (notLarger : ∀ item ∈ items, counts item → size (take item) ≤ size start) :
    runningMax counts take size start items = start := by
  induction items with
  | nil => rfl
  | cons first rest ih =>
      have kept : keepLarger counts take size start first = start :=
        if_neg fun larger => (notLarger first List.mem_cons_self larger.1).not_gt larger.2
      rw [runningMax, List.foldl_cons, kept]
      exact ih fun item member => notLarger item (List.mem_cons_of_mem _ member)

/-- Once an item counts that is no worse than the start, the result is as large as an item. -/
theorem exists_size_eq {items : List Item} (member : item ∈ items) (counted : counts item)
    (above : size start ≤ size (take item)) :
    ∃ item ∈ items, size (runningMax counts take size start items) = size (take item) := by
  rcases runningMax_cases counts take size start items with kept | ⟨other, found, -, taken⟩
  · have below := size_take_le counts take size start member counted
    rw [kept] at below ⊢
    exact ⟨item, member, le_antisymm above below⟩
  · exact ⟨other, found, congrArg size taken⟩

end Fold

end RunningExtremum
