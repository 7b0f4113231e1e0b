import Mathlib.Data.List.Basic
import Mathlib.Data.List.Induction
import Mathlib.Data.List.TakeWhile
import Mathlib.Data.Option.Basic

/-!
Strings of bytes as the C library takes them: up to a NUL byte, and as a format whose
conversions read arguments. Only `%%` and `%s` are modelled; what the standard leaves
undefined, such as a conversion without its argument, has no result.
-/

namespace AutoDrop

def asciiBytes (text : String) : List UInt8 := text.toList.map fun c => .ofNat c.toNat

/-- What a `char *` shows of a string. -/
def cString (str : List UInt8) : List UInt8 := str.takeWhile (· != 0)

theorem cString_of_clean {str : List UInt8} (clean : 0 ∉ str) : cString str = str := by
  refine List.takeWhile_eq_self_iff.mpr fun byte member => ?_
  simp only [bne_iff_ne, ne_eq]
  exact fun zero => clean (zero ▸ member)

theorem clean_cString (str : List UInt8) : 0 ∉ cString str := by
  intro member
  have passed := List.mem_takeWhile_imp member
  simp at passed

theorem cString_cString (str : List UInt8) : cString (cString str) = cString str :=
  cString_of_clean (clean_cString str)

theorem length_cString_le (str : List UInt8) : (cString str).length ≤ str.length :=
  (List.takeWhile_prefix _).length_le

theorem length_cString_lt {str : List UInt8} (dirty : 0 ∈ str) :
    (cString str).length < str.length := by
  apply lt_of_le_of_ne (length_cString_le str)
  intro same
  have whole : cString str = str := (List.takeWhile_prefix _).eq_of_length same
  exact clean_cString str (whole.symm ▸ dirty)

def percent : UInt8 := 37

/-- What a format writes with the strings it is given. -/
def formatted : List UInt8 → List (List UInt8) → Option (List UInt8)
  | [], _ => some []
  | 37 :: 37 :: rest, args => (formatted rest args).map (37 :: ·)
  | 37 :: 115 :: rest, arg :: args => (formatted rest args).map (cString arg ++ ·)
  | 37 :: _, _ => none
  | byte :: rest, args => (formatted rest args).map (byte :: ·)

/-- The characters that `vsnprintf` leaves in a buffer of `size` bytes. -/
def vsnprintf (size : Nat) (format : List UInt8) (args : List (List UInt8)) :
    Option (List UInt8) :=
  (formatted (cString format) args).map (List.take (size - 1))

theorem formatted_cons {byte : UInt8} (ordinary : byte ≠ percent) (rest : List UInt8)
    (args : List (List UInt8)) :
    formatted (byte :: rest) args = (formatted rest args).map (byte :: ·) := by
  rw [formatted]
  all_goals
    intros
    exact absurd ‹_› ordinary

theorem formatted_of_plain {format : List UInt8} (plain : percent ∉ format)
    (args : List (List UInt8)) : formatted format args = some format := by
  induction format with
  | nil => rfl
  | cons byte rest ih =>
      have ordinary : byte ≠ percent := fun same => plain (same ▸ List.mem_cons_self)
      have more : percent ∉ rest := fun member => plain (List.mem_cons_of_mem _ member)
      rw [formatted_cons ordinary, ih more, Option.map_some]

theorem formatted_missing {next : UInt8} (other : next ≠ percent) (rest : List UInt8) :
    formatted (percent :: next :: rest) [] = none := by
  unfold percent at other ⊢
  rw [formatted]
  · intro more same
    exact other (List.cons.inj same).1
  · intro more arg args absent
    cases absent

/-- Without arguments a percent sign is an error or loses the one behind it. -/
theorem length_formatted_nil {format out : List UInt8} (written : formatted format [] = some out) :
    out.length ≤ format.length ∧ (percent ∈ format → out.length < format.length) := by
  induction format using List.twoStepInduction generalizing out with
  | nil =>
      obtain rfl := Option.some.inj written
      exact ⟨le_rfl, fun member => absurd member List.not_mem_nil⟩
  | singleton byte =>
      by_cases first : byte = percent
      · subst first
        cases written
      · rw [formatted_cons first] at written
        obtain rfl := Option.some.inj written
        exact ⟨le_rfl, fun member => absurd (List.mem_singleton.mp member).symm first⟩
  | cons_cons byte next rest skipped ih =>
      by_cases first : byte = percent
      · subst first
        by_cases second : next = percent
        · subst second
          obtain ⟨more, behind, rfl⟩ := Option.map_eq_some_iff.mp written
          have bound := (skipped behind).1
          simp only [List.length_cons]
          omega
        · rw [formatted_missing second] at written
          cases written
      · rw [formatted_cons first] at written
        obtain ⟨more, behind, rfl⟩ := Option.map_eq_some_iff.mp written
        obtain ⟨bound, strict⟩ := ih next behind
        simp only [List.length_cons] at bound strict ⊢
        refine ⟨by omega, fun member => ?_⟩
        have later := strict ((List.mem_cons.mp member).resolve_left (Ne.symm first))
        omega

end AutoDrop
