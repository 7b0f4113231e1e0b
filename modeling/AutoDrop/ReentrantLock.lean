import Mathlib.Logic.Function.Basic

/-! What a reentrant lock is for: one owner, who may enter it again. -/

inductive ReentrantLock (Owner : Type*)
  | free
  | held (owner : Owner) (again : Nat)

namespace ReentrantLock

variable {Owner : Type*} [DecidableEq Owner]

/-- How often the lock is held by `who`. -/
def depthOf : ReentrantLock Owner → Owner → Nat
  | free, _ => 0
  | held owner again, who => if who = owner then again + 1 else 0

def acquire : ReentrantLock Owner → Owner → Option (ReentrantLock Owner)
  | free, who => some (held who 0)
  | held owner again, who => if owner = who then some (held owner (again + 1)) else none

def release : ReentrantLock Owner → Owner → Option (ReentrantLock Owner)
  | free, _ => none
  | held owner 0, who => if owner = who then some free else none
  | held owner (again + 1), who => if owner = who then some (held owner again) else none

theorem release_held {lock next : ReentrantLock Owner} {owner : Owner}
    (taken : lock.release owner = some next) : ∃ again, lock = held owner again := by
  cases lock with
  | free => cases taken
  | held holder again =>
      by_cases same : holder = owner
      · exact ⟨again, by rw [same]⟩
      · cases again <;> simp [release, same] at taken

theorem depthOf_exclusive {lock : ReentrantLock Owner} {first second : Owner}
    (left : 0 < lock.depthOf first) (right : 0 < lock.depthOf second) : first = second := by
  cases lock with
  | free => simp [depthOf] at left
  | held owner again =>
      simp only [depthOf] at left right
      split at left
      · split at right
        · simp_all
        · omega
      · omega

theorem depthOf_acquire {lock next : ReentrantLock Owner} {owner : Owner}
    (taken : lock.acquire owner = some next) :
    next.depthOf = Function.update lock.depthOf owner (lock.depthOf owner + 1) := by
  funext who
  rw [Function.update_apply]
  cases lock with
  | free =>
      simp only [acquire, Option.some.injEq] at taken
      subst next
      rfl
  | held holder again =>
      simp only [acquire] at taken
      split at taken
      · rename_i same
        simp only [Option.some.injEq] at taken
        subst next holder
        simp only [depthOf, if_true]
        split <;> rfl
      · simp at taken

theorem depthOf_release {lock next : ReentrantLock Owner} {owner : Owner}
    (taken : lock.release owner = some next) :
    next.depthOf = Function.update lock.depthOf owner (lock.depthOf owner - 1) := by
  funext who
  rw [Function.update_apply]
  cases lock with
  | free => simp [release] at taken
  | held holder again =>
      cases again with
      | zero =>
          simp only [release] at taken
          split at taken
          · rename_i same
            simp only [Option.some.injEq] at taken
            subst next holder
            simp only [depthOf, if_true]
            split <;> simp_all
          · simp at taken
      | succ again =>
          simp only [release] at taken
          split at taken
          · rename_i same
            simp only [Option.some.injEq] at taken
            subst next holder
            simp only [depthOf, if_true]
            split <;> simp_all
          · simp at taken

end ReentrantLock
