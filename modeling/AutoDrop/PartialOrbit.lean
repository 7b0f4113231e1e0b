import Mathlib.Data.Finset.Card
import Mathlib.Data.Finset.Dedup
import Mathlib.Data.Fintype.Card

/-!
Following a partial function from a point. Among finitely many points the path ends, within
as many steps as there are points, unless it comes to a cycle.
-/

namespace PartialOrbit

variable {α : Type*} {next : α → Option α} {point target : α} {steps more : Nat}

def orbit (next : α → Option α) : Nat → α → Option α
  | 0, point => some point
  | steps + 1, point => (next point).bind (orbit next steps)

/-- The path comes to a point that it comes back to. -/
def Cycles (next : α → Option α) (point : α) : Prop :=
  ∃ before length target, 0 < length ∧ orbit next before point = some target ∧
    orbit next length target = some target

theorem orbit_add (before after : Nat) (point : α) : orbit next (before + after) point =
    (orbit next before point).bind (orbit next after) := by
  induction before generalizing point with
  | zero => simp [orbit]
  | succ before ih =>
      rw [Nat.succ_add, orbit, orbit, Option.bind_assoc]
      exact Option.bind_congr fun middle _ => ih middle

theorem orbit_none_of_le (ended : orbit next steps point = none) (later : steps ≤ more) :
    orbit next more point = none := by
  obtain ⟨extra, rfl⟩ := Nat.exists_eq_add_of_le later
  rw [orbit_add, ended, Option.bind_none]

theorem Cycles.never_ends (cycles : Cycles next point) (steps : Nat) :
    orbit next steps point ≠ none := by
  obtain ⟨before, length, target, positive, reached, back⟩ := cycles
  have around (count : Nat) : orbit next (count * length) target = some target := by
    induction count with
    | zero => rw [Nat.zero_mul, orbit]
    | succ count ih => rw [Nat.succ_mul, orbit_add, ih, Option.bind_some, back]
  intro ended
  have later : steps ≤ before + steps * length := by
    have grows : steps * 1 ≤ steps * length := Nat.mul_le_mul_left steps positive
    omega
  have none := orbit_none_of_le ended later
  rw [orbit_add, reached, Option.bind_some, around] at none
  cases none

theorem cycles_of_twice {first second : Nat} (earlier : first < second)
    (here : orbit next first point = some target)
    (again : orbit next second point = some target) : Cycles next point := by
  obtain ⟨length, rfl⟩ := Nat.exists_eq_add_of_lt earlier
  refine ⟨first, length + 1, target, Nat.succ_pos length, here, ?_⟩
  rwa [Nat.add_assoc, orbit_add, here, Option.bind_some] at again

theorem orbit_length_eq_none [DecidableEq α] {points : List α}
    (inside : ∀ steps target, orbit next steps point = some target → target ∈ points)
    (acyclic : ¬Cycles next point) : orbit next points.length point = none := by
  by_contra goesOn
  have goes (index : Nat) (bound : index ≤ points.length) :
      ∃ target, orbit next index point = some target :=
    Option.ne_none_iff_exists'.mp fun ended => goesOn (orbit_none_of_le ended bound)
  let visit (index : Fin (points.length + 1)) : α :=
    (orbit next index point).getD point
  have visits (index : Fin (points.length + 1)) :
      orbit next index point = some (visit index) := by
    obtain ⟨target, reached⟩ := goes index (by omega)
    simp [visit, reached]
  have smaller : points.toFinset.card < (Finset.univ : Finset (Fin (points.length + 1))).card := by
    have bound := points.toFinset_card_le
    simp only [Finset.card_univ, Fintype.card_fin]
    omega
  obtain ⟨first, _, second, _, different, same⟩ :=
    Finset.exists_ne_map_eq_of_card_lt_of_maps_to smaller
      fun index _ => List.mem_toFinset.mpr (inside index _ (visits index))
  have again := visits second
  rw [← same] at again
  rcases Nat.lt_or_gt_of_ne (Fin.val_ne_of_ne different) with earlier | later
  · exact acyclic (cycles_of_twice earlier (visits first) again)
  · exact acyclic (cycles_of_twice later again (visits first))

/-- The path ends exactly if it comes to no cycle, and then within the number of points. -/
theorem ends_iff [DecidableEq α] {points : List α}
    (inside : ∀ steps target, orbit next steps point = some target → target ∈ points) :
    (∃ steps, orbit next steps point = none) ↔ ¬Cycles next point :=
  ⟨fun ⟨steps, ended⟩ cycles => cycles.never_ends steps ended,
    fun acyclic => ⟨_, orbit_length_eq_none inside acyclic⟩⟩

end PartialOrbit
