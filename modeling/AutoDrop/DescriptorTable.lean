import Mathlib.Logic.Function.Basic

/-!
Owners of descriptors. An owner is numbered when it opens its descriptor, and no two owners
hold the same one; a descriptor that was closed may be opened again by a later owner.
-/

structure DescriptorTable where
  fdOf : Nat → Option Nat
  next : Nat
  distinct : ∀ {owner other fd}, fdOf owner = some fd → fdOf other = some fd → owner = other
  below : ∀ {owner fd}, fdOf owner = some fd → owner < next

namespace DescriptorTable

def empty : DescriptorTable where
  fdOf _ := none
  next := 0
  distinct held := nomatch held
  below held := nomatch held

def InUse (table : DescriptorTable) (fd : Nat) : Prop :=
  ∃ owner < table.next, table.fdOf owner = some fd

instance (table : DescriptorTable) (fd : Nat) : Decidable (table.InUse fd) :=
  inferInstanceAs (Decidable (∃ owner < table.next, table.fdOf owner = some fd))

variable {table : DescriptorTable} {owner other fd : Nat}

theorem inUse_of_fdOf (held : table.fdOf owner = some fd) : table.InUse fd :=
  ⟨owner, table.below held, held⟩

theorem fdOf_next : table.fdOf table.next = none := by
  cases held : table.fdOf table.next with
  | none => rfl
  | some fd => exact (Nat.lt_irrefl _ (table.below held)).elim

/-- The next owner opens a descriptor that nobody holds. -/
def openFd (table : DescriptorTable) (fd : Nat) (free : ¬table.InUse fd) : DescriptorTable where
  fdOf := Function.update table.fdOf table.next (some fd)
  next := table.next + 1
  distinct := by
    intro owner other held heldOwner heldOther
    rw [Function.update_apply] at heldOwner heldOther
    split at heldOwner <;> split at heldOther
    · rename_i first second
      exact first.trans second.symm
    · exact (free (Option.some.inj heldOwner ▸ inUse_of_fdOf heldOther)).elim
    · exact (free (Option.some.inj heldOther ▸ inUse_of_fdOf heldOwner)).elim
    · exact table.distinct heldOwner heldOther
  below := by
    intro owner held heldOwner
    rw [Function.update_apply] at heldOwner
    split at heldOwner
    · omega
    · exact Nat.lt_succ_of_lt (table.below heldOwner)

def closeFd (table : DescriptorTable) (fd : Nat) : DescriptorTable where
  fdOf owner := (table.fdOf owner).filter (· ≠ fd)
  next := table.next
  distinct heldOwner heldOther :=
    table.distinct (Option.filter_eq_some_iff.mp heldOwner).1
      (Option.filter_eq_some_iff.mp heldOther).1
  below held := table.below (Option.filter_eq_some_iff.mp held).1

/-- Who is reached through a descriptor. -/
def holder (table : DescriptorTable) (fd : Nat) : Option Nat :=
  (List.range table.next).find? fun owner => table.fdOf owner = some fd

theorem fdOf_openFd (free : ¬table.InUse fd) :
    (table.openFd fd free).fdOf other =
      if other = table.next then some fd else table.fdOf other :=
  Function.update_apply ..

theorem fdOf_closeFd {kept : Nat} :
    (table.closeFd fd).fdOf owner = some kept ↔ table.fdOf owner = some kept ∧ kept ≠ fd := by
  simp [closeFd, Option.filter_eq_some_iff]

theorem holder_eq_some : table.holder fd = some owner ↔ table.fdOf owner = some fd := by
  constructor
  · intro found
    simpa using List.find?_some found
  · intro held
    have among : owner ∈ List.range table.next := List.mem_range.mpr (table.below held)
    cases found : table.holder fd with
    | none =>
        have nobody := List.find?_eq_none.mp found owner among
        exact (nobody (by simpa using held)).elim
    | some other =>
        have heldOther : table.fdOf other = some fd := by simpa using List.find?_some found
        rw [table.distinct held heldOther]

end DescriptorTable
