import Mathlib.Data.List.DropRight
import Mathlib.Data.List.Infix

/-!
What a component that is fed one input after the other still knows of them: the inputs since
its last reset, and of these, with a bounded window, the latest ones.
-/

namespace InputMemory

variable {Input : Type*}

/-- Each input with whether the component is reset before it. -/
def sinceReset (inputs : List (Bool × Input)) : List Input :=
  inputs.foldl (fun kept input => (if input.1 then [] else kept) ++ [input.2]) []

def pushBounded (bound : Nat) (window : List Input) (input : Input) : List Input :=
  let pushed := window ++ [input]
  if bound < pushed.length then pushed.tail else pushed

theorem sinceReset_concat (inputs : List (Bool × Input)) (input : Bool × Input) :
    sinceReset (inputs ++ [input]) =
      (if input.1 then [] else sinceReset inputs) ++ [input.2] := by
  simp [sinceReset]

theorem sinceReset_suffix (inputs : List (Bool × Input)) :
    sinceReset inputs <:+ inputs.map Prod.snd := by
  induction inputs using List.reverseRecOn with
  | nil => exact List.suffix_refl _
  | append_singleton inputs input ih =>
      obtain ⟨before, split⟩ := ih
      rw [sinceReset_concat, List.map_append]
      by_cases reset : input.1
      · exact ⟨inputs.map Prod.snd, by simp [reset]⟩
      · exact ⟨before, by simp [reset, ← split]⟩

theorem length_sinceReset {Other : Type*} {inputs : List (Bool × Input)}
    {others : List (Bool × Other)} (resets : inputs.map Prod.fst = others.map Prod.fst) :
    (sinceReset inputs).length = (sinceReset others).length := by
  induction inputs using List.reverseRecOn generalizing others with
  | nil =>
      rw [List.map_eq_nil_iff.mp resets.symm]
      rfl
  | append_singleton inputs input ih =>
      rcases List.eq_nil_or_concat' others with rfl | ⟨before, last, rfl⟩
      · simp at resets
      · rw [List.map_append, List.map_append] at resets
        obtain ⟨earlier, latest⟩ := List.append_inj' resets rfl
        have same : input.1 = last.1 := by simpa using latest
        rw [sinceReset_concat, sinceReset_concat, same]
        split
        · rfl
        · simp [ih earlier]

theorem foldl_pushBounded (bound : Nat) (inputs : List Input) :
    inputs.foldl (pushBounded bound) [] = inputs.rtake bound := by
  induction inputs using List.reverseRecOn with
  | nil => simp
  | append_singleton inputs input ih =>
      rw [List.foldl_concat, ih]
      cases bound with
      | zero => simp [pushBounded]
      | succ bound =>
          rw [List.rtake_concat_succ, pushBounded]
          by_cases full : bound < inputs.length
          · have length : (inputs.rtake (bound + 1)).length = bound + 1 := by
              simp only [List.rtake, List.length_drop]
              omega
            have drops : (inputs.rtake (bound + 1)).tail = inputs.rtake bound := by
              simp only [List.rtake, List.tail_drop]
              congr 1
              omega
            rw [if_pos (by simp [length]), List.tail_append_of_ne_nil, drops]
            intro empty
            simp [empty] at length
          · have all (n : Nat) (enough : inputs.length ≤ n) : inputs.rtake n = inputs := by
              simp [List.rtake, Nat.sub_eq_zero_of_le enough]
            rw [all _ (by omega), all _ (by omega), if_neg (by simp; omega)]

variable {first second whole : List Input}

theorem eq_of_suffixes (left : first <:+ whole) (right : second <:+ whole)
    (length : first.length = second.length) : first = second :=
  (List.suffix_of_suffix_length_le left right length.le).eq_of_length length

theorem getLast?_eq_of_suffixes (left : first <:+ whole) (right : second <:+ whole)
    (nonempty : first ≠ [] ∧ second ≠ []) : first.getLast? = second.getLast? := by
  obtain ⟨before, rfl⟩ := left
  obtain ⟨other, split⟩ := right
  have last := congrArg List.getLast? split
  rw [List.getLast?_append_of_ne_nil _ nonempty.1,
    List.getLast?_append_of_ne_nil _ nonempty.2] at last
  exact last.symm

/-- Two ends of one history have the same latest inputs, as far as both reach. -/
theorem rtake_eq_of_suffixes (left : first <:+ whole) (right : second <:+ whole) {bound : Nat}
    (reach : min first.length bound = min second.length bound) :
    first.rtake bound = second.rtake bound := by
  have latest (inputs : List Input) : inputs.rtake bound <:+ inputs := List.drop_suffix _ _
  refine eq_of_suffixes ((latest first).trans left) ((latest second).trans right) ?_
  simp only [List.rtake, List.length_drop]
  omega

end InputMemory
