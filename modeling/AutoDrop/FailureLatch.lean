import Mathlib.Data.Int.Order.Basic
import Mathlib.Data.List.DropRight
import Mathlib.Data.List.Infix

/-!
A counter of consecutive failures that a success resets, and a latch that is set where the
counter passes a limit. The latch is set by exactly the histories with a longer run of failures.
-/

namespace FailureLatch

structure Latch where
  count : Int
  set : Bool

/-- The outcome is whether an operation succeeds. -/
def feed (limit : Int) (latch : Latch) (success : Bool) : Latch :=
  if success then { latch with count := 0 }
  else { count := latch.count + 1, set := latch.set || limit < latch.count + 1 }

def fresh : Latch := ⟨0, false⟩

/-- The failures since the last success. -/
def trailing (outcomes : List Bool) : List Bool := outcomes.rtakeWhile (!·)

def FailureRun (limit : Nat) (outcomes : List Bool) : Prop :=
  ∃ before fails after, outcomes = before ++ fails ++ after ∧ limit < fails.length ∧
    ∀ outcome ∈ fails, outcome = false

variable {limit : Nat} {outcomes : List Bool} {outcome : Bool}

theorem trailing_concat (outcomes : List Bool) (outcome : Bool) :
    trailing (outcomes ++ [outcome]) = if outcome then [] else trailing outcomes ++ [outcome] := by
  rw [trailing, List.rtakeWhile_concat]
  cases outcome with
  | false => rfl
  | true => rfl

theorem length_le_trailing {fails : List Bool} (last : fails <:+ outcomes)
    (failed : ∀ outcome ∈ fails, outcome = false) :
    fails.length ≤ (trailing outcomes).length := by
  obtain ⟨before, rfl⟩ := last
  have all : ∀ outcome ∈ fails.reverse, (!outcome) = true := by
    intro outcome member
    rw [failed outcome (List.mem_reverse.mp member)]
    rfl
  rw [trailing, List.rtakeWhile, List.reverse_append, List.takeWhile_append_of_pos all,
    List.length_reverse, List.length_append, List.length_reverse]
  omega

theorem failureRun_concat :
    FailureRun limit (outcomes ++ [outcome]) ↔
      FailureRun limit outcomes ∨ limit < (trailing (outcomes ++ [outcome])).length := by
  constructor
  · rintro ⟨before, fails, after, split, long, failed⟩
    rcases List.eq_nil_or_concat' after with rfl | ⟨earlier, last, rfl⟩
    · right
      have bound := length_le_trailing ⟨before, by simpa using split.symm⟩ failed
      omega
    · left
      rw [← List.append_assoc] at split
      exact ⟨before, fails, earlier, (List.append_inj' split rfl).1, long, failed⟩
  · rintro (⟨before, fails, after, rfl, long, failed⟩ | long)
    · exact ⟨before, fails, after ++ [outcome], by simp, long, failed⟩
    · obtain ⟨before, split⟩ := List.rtakeWhile_suffix (p := (!·)) (l := outcomes ++ [outcome])
      refine ⟨before, trailing (outcomes ++ [outcome]), [], ?_, long, ?_⟩
      · rw [List.append_nil]
        exact split.symm
      · intro other member
        simpa using List.mem_rtakeWhile_imp member

/-- The counter counts the failures since the last success. -/
theorem foldl_feed (limit : Nat) (outcomes : List Bool) :
    (outcomes.foldl (feed limit) fresh).count = (trailing outcomes).length ∧
      ((outcomes.foldl (feed limit) fresh).set = true ↔ FailureRun limit outcomes) := by
  induction outcomes using List.reverseRecOn with
  | nil =>
      refine ⟨rfl, iff_of_false Bool.false_ne_true ?_⟩
      rintro ⟨before, fails, after, split, long, -⟩
      have length := congrArg List.length split
      simp only [List.length_nil, List.length_append] at length
      omega
  | append_singleton outcomes outcome ih =>
      obtain ⟨count, set⟩ := ih
      rw [List.foldl_concat, failureRun_concat, trailing_concat, ← set]
      cases outcome with
      | true => simp [feed]
      | false =>
          simp only [feed, Bool.false_eq_true, if_false, count, Bool.or_eq_true,
            decide_eq_true_eq, List.length_append, List.length_singleton]
          refine ⟨by omega, or_congr_right ?_⟩
          omega

theorem set_foldl_feed (limit : Int) {latch : Latch} (set : latch.set = true)
    (outcomes : List Bool) : (outcomes.foldl (feed limit) latch).set = true := by
  induction outcomes generalizing latch with
  | nil => exact set
  | cons outcome rest ih =>
      apply ih
      cases outcome with
      | true => exact set
      | false => simp [feed, set]

end FailureLatch
