import AutoDrop.CliConfig
import AutoDrop.CliWords
import Mathlib.Data.List.TakeWhile

/-!
Port numbers as text: `std::stoi` reads back what `std::to_string` prints, and no shorter
text gives the same number.
-/

namespace AutoDrop

theorem isDigit_toDigits {magnitude : Nat} {c : Char} (member : c ∈ Nat.toDigits 10 magnitude) :
    c.isDigit = true :=
  Nat.isDigit_of_mem_toDigits (by decide) (by decide) member

theorem stoiDigits_toDigits (magnitude : Nat) :
    stoiDigits (Nat.toDigits 10 magnitude) = some magnitude := by
  have all : (Nat.toDigits 10 magnitude).takeWhile Char.isDigit = Nat.toDigits 10 magnitude :=
    List.takeWhile_eq_self_iff.mpr fun c member => isDigit_toDigits member
  rw [stoiDigits, all, if_neg Nat.toDigits_ne_nil, Nat.ofDigitChars_ten_toDigits]

theorem ordinary_of_isDigit {c : Char} (digit : c.isDigit = true) :
    isSpace c = false ∧ c ≠ '-' ∧ c ≠ '+' ∧ endsWord c = false ∧ c ≠ '\\' := by
  have apart (other : Char) (no : other.isDigit = false) : c ≠ other := by
    rintro rfl
    simp [no] at digit
  have code : c.toNat ≠ 11 ∧ c.toNat ≠ 12 := by
    simp only [Char.isDigit, Bool.and_eq_true, decide_eq_true_eq] at digit
    have low : 48 ≤ c.toNat := digit.1
    omega
  refine ⟨?_, apart _ rfl, apart _ rfl, ?_, apart _ rfl⟩
  · simp [isSpace, apart ' ' rfl, apart '\t' rfl, apart '\n' rfl, apart '\r' rfl, code]
  · simp [endsWord, isBlank, isQuote, apart ' ' rfl, apart '\t' rfl, apart '\n' rfl,
      apart '"' rfl, apart '\'' rfl]

theorem stoi_intToString {number : Int} (fits : -2 ^ 31 ≤ number ∧ number < 2 ^ 31) :
    stoi (intToString number) = some number := by
  cases number with
  | ofNat magnitude =>
      obtain ⟨c, rest, digits⟩ := List.exists_cons_of_ne_nil
        (Nat.toDigits_ne_nil : Nat.toDigits 10 magnitude ≠ [])
      have read := stoiDigits_toDigits magnitude
      obtain ⟨space, minus, plus, _⟩ :=
        ordinary_of_isDigit (isDigit_toDigits (digits ▸ List.mem_cons_self))
      rw [digits] at read
      simp only [stoi, intToString, digits, List.dropWhile_cons, space, Bool.false_eq_true,
        if_false]
      split
      · simp_all
      · simp_all
      · rw [read]
        simp only [Option.map_some, Option.filter_some]
        exact if_pos (by simpa using fits)
  | negSucc magnitude =>
      have space : isSpace '-' = false := rfl
      simp only [stoi, intToString, List.dropWhile_cons, space, Bool.false_eq_true, if_false,
        stoiDigits_toDigits, Option.map_some, Option.filter_some]
      have same : -((magnitude + 1 : Nat) : Int) = Int.negSucc magnitude := rfl
      rw [same]
      exact if_pos (by simpa using fits)

theorem ofDigitChars_lt (digits : Chars) (all : ∀ c ∈ digits, c.isDigit = true) :
    Nat.ofDigitChars 10 digits 0 < 10 ^ digits.length := by
  induction digits with
  | nil => decide
  | cons c rest ih =>
      have later := ih fun other member => all other (List.mem_cons_of_mem _ member)
      have digit : c.toNat - 48 ≤ 9 := by
        have here := all c (by simp)
        simp only [Char.isDigit, Bool.and_eq_true, decide_eq_true_eq] at here
        have high : c.toNat ≤ 57 := here.2
        omega
      have zero : '0'.toNat = 48 := rfl
      rw [Nat.ofDigitChars_cons, Nat.ofDigitChars_eq_ofDigitChars_zero, List.length_cons,
        Nat.pow_succ, Nat.mul_zero, Nat.zero_add, zero]
      have bound := Nat.mul_le_mul_left (10 ^ rest.length) digit
      omega

theorem length_of_stoiDigits {digits : Chars} {magnitude : Nat}
    (read : stoiDigits digits = some magnitude) :
    (Nat.toDigits 10 magnitude).length ≤ digits.length := by
  unfold stoiDigits at read
  split at read
  · cases read
  · rename_i nonempty
    obtain rfl := Option.some.inj read
    have positive : 0 < (digits.takeWhile Char.isDigit).length :=
      List.length_pos_of_ne_nil nonempty
    have small := ofDigitChars_lt (digits.takeWhile Char.isDigit)
      fun c member => List.mem_takeWhile_imp member
    have front : digits.takeWhile Char.isDigit <+: digits := List.takeWhile_prefix _
    have shorter := front.length_le
    exact Nat.le_trans ((Nat.length_toDigits_le_iff (by decide) positive).mpr small) shorter

theorem length_intToString_neg_le (magnitude : Nat) :
    (intToString (-magnitude)).length ≤ (Nat.toDigits 10 magnitude).length + 1 := by
  cases magnitude with
  | zero => simp [intToString]
  | succ magnitude =>
      have same : -((magnitude + 1 : Nat) : Int) = Int.negSucc magnitude := rfl
      rw [same]
      simp [intToString]

theorem length_of_stoi {text : Chars} {number : Int} (read : stoi text = some number) :
    (intToString number).length ≤ text.length := by
  have behind : text.dropWhile isSpace <:+ text := List.dropWhile_suffix _
  have shorter := behind.length_le
  simp only [stoi, Option.filter_eq_some_iff] at read
  obtain ⟨read, _⟩ := read
  split at read
  · rename_i digits rest
    obtain ⟨magnitude, found, rfl⟩ := Option.map_eq_some_iff.mp read
    have length := length_of_stoiDigits found
    have sign := length_intToString_neg_le magnitude
    rw [rest, List.length_cons] at shorter
    omega
  · rename_i digits rest
    obtain ⟨magnitude, found, rfl⟩ := Option.map_eq_some_iff.mp read
    have length := length_of_stoiDigits found
    rw [rest, List.length_cons] at shorter
    have same : intToString magnitude = Nat.toDigits 10 magnitude := rfl
    rw [same]
    omega
  · obtain ⟨magnitude, found, rfl⟩ := Option.map_eq_some_iff.mp read
    have same : intToString magnitude = Nat.toDigits 10 magnitude := rfl
    rw [same]
    exact Nat.le_trans (length_of_stoiDigits found) shorter

theorem keeps_of_ordinary {stop : Char → Bool} {word : Chars}
    (ordinary : ∀ c ∈ word, stop c = false ∧ c ≠ '\\') : keeps stop word = true := by
  induction word with
  | nil => rfl
  | cons c rest ih =>
      obtain ⟨goes, plain⟩ := ordinary c (by simp)
      rw [keeps_cons plain, goes,
        ih fun other member => ordinary other (List.mem_cons_of_mem _ member)]
      rfl

theorem plain_intToString (number : Int) : Plain (intToString number) := by
  have digits (magnitude : Nat) : ∀ c ∈ Nat.toDigits 10 magnitude, endsWord c = false ∧ c ≠ '\\' :=
    fun c member => (ordinary_of_isDigit (isDigit_toDigits member)).2.2.2
  cases number with
  | ofNat magnitude => exact ⟨Nat.toDigits_ne_nil, keeps_of_ordinary (digits magnitude)⟩
  | negSucc magnitude =>
      refine ⟨by simp [intToString], keeps_of_ordinary fun c member => ?_⟩
      rcases List.mem_cons.mp member with rfl | member
      · exact ⟨rfl, by simp⟩
      · exact digits _ c member

end AutoDrop
