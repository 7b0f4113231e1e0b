import Mathlib.Data.List.Basic
import Mathlib.Data.List.Induction

/-!
A list of items with keys, cut where a new key comes. `Cut` is what a loop that keeps the last group
open knows, whatever it hands over when a group ends.
-/

namespace KeyedGroups

variable {K α : Type*} [DecidableEq K]

def members (items : List (K × List α)) (key : K) : List α :=
  (items.filter fun item => decide (item.1 = key)).flatMap Prod.snd

def closed (group : List α) : List (List α) := if group.isEmpty then [] else [group]

/-- The groups with something in them, in the order of their first items. -/
def groups (items : List (K × List α)) : List (List α) :=
  (items.map Prod.fst).eraseDups.flatMap fun key => closed (members items key)

variable {items : List (K × List α)} {key later : K} {values : List α}

theorem members_concat (items : List (K × List α)) (key other : K) (values : List α) :
    members (items ++ [(key, values)]) other =
      if key = other then members items other ++ values else members items other := by
  rw [members, members, List.filter_append, List.flatMap_append]
  by_cases same : key = other <;> simp [same]

theorem length_members_append (before after : List (K × List α)) (key : K) :
    (members before key).length ≤ (members (before ++ after) key).length := by
  rw [members, members, List.filter_append, List.flatMap_append, List.length_append]
  omega

theorem length_members_le (items : List (K × List α)) (key : K) :
    (members items key).length ≤ (items.flatMap Prod.snd).length := by
  induction items with
  | nil => exact Nat.le_refl _
  | cons item rest ih =>
    rw [members, List.filter_cons, List.flatMap_cons, List.length_append]
    rw [members] at ih
    split
    · rw [List.flatMap_cons, List.length_append]
      omega
    · omega

theorem members_of_absent (absent : key ∉ items.map Prod.fst) : members items key = [] := by
  have none : items.filter (fun item => decide (item.1 = key)) = [] := by
    rw [List.filter_eq_nil_iff]
    intro item member same
    exact absent (List.mem_map.mpr ⟨item, member, of_decide_eq_true same⟩)
  rw [members, none, List.flatMap_nil]

theorem eraseDups_concat (keys : List K) (last : K) :
    (keys ++ [last]).eraseDups =
      if last ∈ keys then keys.eraseDups else keys.eraseDups ++ [last] := by
  rw [List.eraseDups_append]
  by_cases member : last ∈ keys
  · simp [List.removeAll, member]
  · simp [List.removeAll, member, List.eraseDups_cons]

theorem mem_eraseDups (keys : List K) : key ∈ keys.eraseDups ↔ key ∈ keys := by
  induction keys using List.reverseRecOn with
  | nil => simp
  | append_singleton keys last ih =>
    rw [eraseDups_concat, List.mem_append, List.mem_singleton, ← ih]
    split
    · next member =>
      constructor
      · exact .inl
      · rintro (there | rfl)
        · exact there
        · exact ih.mpr member
    · rw [List.mem_append, List.mem_singleton]

/-- The groups that ended are done, and the last one is current. -/
structure Cut (items : List (K × List α)) (key : K) (done : List (List α)) (current : List α) :
    Prop where
  split : ∃ before, (items.map Prod.fst).eraseDups = before ++ [key] ∧ key ∉ before ∧
    done = before.flatMap fun other => closed (members items other)
  current : current = members items key

theorem Cut.first (key : K) (values : List α) : Cut [(key, values)] key [] values where
  split := ⟨[], rfl, by simp, rfl⟩
  current := by simp [members]

variable {done : List (List α)} {current : List α}

theorem Cut.groups_eq (cut : Cut items key done current) :
    groups items = done ++ closed current := by
  obtain ⟨before, keys, -, done⟩ := cut.split
  rw [groups, keys, List.flatMap_append, ← done, cut.current]
  simp

theorem Cut.key_mem (cut : Cut items key done current) : key ∈ items.map Prod.fst := by
  obtain ⟨before, keys, -, -⟩ := cut.split
  rw [← mem_eraseDups, keys]
  simp

theorem Cut.same (cut : Cut items key done current) (values : List α) :
    Cut (items ++ [(key, values)]) key done (current ++ values) where
  split := by
    obtain ⟨before, keys, once, done⟩ := cut.split
    refine ⟨before, ?_, once, ?_⟩
    · rw [List.map_append, List.map_singleton, eraseDups_concat, if_pos cut.key_mem, keys]
    · rw [done]
      refine List.flatMap_congr fun other member => ?_
      rw [members_concat, if_neg (fun same : key = other => once (same ▸ member))]
  current := by rw [members_concat, if_pos rfl, cut.current]

theorem Cut.fresh (cut : Cut items key done current) (fresh : later ∉ items.map Prod.fst)
    (values : List α) :
    Cut (items ++ [(later, values)]) later (done ++ closed current) values where
  split := by
    obtain ⟨before, keys, -, done⟩ := cut.split
    have unseen : later ∉ before ++ [key] := by
      intro member
      rw [← keys, mem_eraseDups] at member
      exact fresh member
    refine ⟨before ++ [key], ?_, unseen, ?_⟩
    · rw [List.map_append, List.map_singleton, eraseDups_concat, if_neg fresh, keys]
    · have kept : ∀ other ∈ before ++ [key],
          closed (members (items ++ [(later, values)]) other) = closed (members items other) := by
        intro other member
        rw [members_concat, if_neg (fun same : later = other => unseen (same ▸ member))]
      rw [List.flatMap_congr kept, List.flatMap_append, ← done, cut.current]
      simp
  current := by rw [members_concat, if_pos rfl, members_of_absent fresh, List.nil_append]

end KeyedGroups
