import Mathlib.Data.List.Infix
import Mathlib.Data.Option.Basic

/-!
A latch takes the first value that is detected and holds it, whatever is detected later, until
it is cleared. Clearing wins over a detection of the same input.
-/

namespace Latch

variable {Value : Type*}

structure Input (Value : Type*) where
  cleared : Bool
  detected : Option Value

def next (held : Option Value) (input : Input Value) : Option Value :=
  if input.cleared then none else held.or input.detected

def held (inputs : List (Input Value)) : Option Value :=
  inputs.foldl next none

variable {input : Input Value} {inputs more : List (Input Value)} {value other : Value}

theorem held_concat (inputs : List (Input Value)) (input : Input Value) :
    held (inputs ++ [input]) = next (held inputs) input :=
  List.foldl_concat _ _ _ _

theorem next_none_eq_some :
    next none input = some value ↔ input.cleared = false ∧ input.detected = some value := by
  unfold next
  cases input.cleared with
  | false => simp
  | true => simp

theorem cleared_of_next (lost : next (some value) input = none) : input.cleared = true := by
  unfold next at lost
  cases cleared : input.cleared with
  | false => simp [cleared] at lost
  | true => rfl

theorem next_some_eq_some (kept : next (some value) input = some other) : other = value := by
  unfold next at kept
  cases cleared : input.cleared with
  | false =>
      rw [cleared] at kept
      exact (Option.some.inj kept).symm
  | true =>
      rw [cleared] at kept
      cases kept

theorem detected_of_held (holds : held inputs = some value) :
    ∃ input ∈ inputs, input.detected = some value := by
  induction inputs using List.reverseRecOn with
  | nil => cases holds
  | append_singleton inputs input ih =>
      rw [held_concat] at holds
      cases before : held inputs with
      | none =>
          rw [before] at holds
          exact ⟨input, by simp, (next_none_eq_some.mp holds).2⟩
      | some earlier =>
          rw [before] at holds
          obtain rfl := next_some_eq_some holds
          obtain ⟨source, member, detected⟩ := ih before
          exact ⟨source, List.mem_append_left _ member, detected⟩

theorem held_of_stay (stay : ∀ part, part <+: more → held (inputs ++ part) ≠ none) :
    held (inputs ++ more) = held inputs := by
  induction more using List.reverseRecOn with
  | nil => rw [List.append_nil]
  | append_singleton more input ih =>
      have still := stay (more ++ [input]) (List.prefix_refl _)
      have same := ih fun part front => stay part (front.trans (List.prefix_append _ _))
      have before := stay more (List.prefix_append _ _)
      rw [← List.append_assoc, held_concat] at still ⊢
      rw [← same]
      obtain ⟨value, holds⟩ := Option.ne_none_iff_exists'.mp before
      obtain ⟨after, kept⟩ := Option.ne_none_iff_exists'.mp still
      rw [holds] at kept ⊢
      rw [kept, next_some_eq_some kept]

end Latch
