import Mathlib.Algebra.Ring.Nat
import Mathlib.Data.List.Infix

/-!
`ad_utils_split_string`. Its loop has no bound of its own, so it runs with room for so many
turns here.
-/

namespace AutoDrop

namespace StringSplit

variable {α : Type*} [DecidableEq α] {str delimiter : List α} {start stop fuel : Nat}

/-- `str.find(delimiter, start)`, where `none` is `npos`. -/
def find (str delimiter : List α) (start : Nat) : Option Nat :=
  (List.range' start (str.length + 1 - start)).find? fun i => delimiter.isPrefixOf (str.drop i)

inductive SplitFailure
  | outOfRange
  | unfinished
deriving DecidableEq

/-- `str.substr(start)`, and with a length `str.substr(start, length)`. -/
def substr (str : List α) (start : Nat) (length : Option Nat) : Except SplitFailure (List α) :=
  if str.length < start then .error .outOfRange
  else
    match length with
    | none => .ok (str.drop start)
    | some length => .ok ((str.drop start).take length)

/-- The loop from a `start` and an `end` on, with what it still pushes back. -/
def splitLoop (str delimiter : List α) :
    Nat → Nat → Option Nat → Except SplitFailure (List (List α))
  | _, start, none => (substr str start none).map fun last => [last]
  | 0, _, some _ => .error .unfinished
  | fuel + 1, start, some stop => do
      let piece ← substr str start (some (stop - start))
      let start := stop + delimiter.length
      let rest ← splitLoop str delimiter fuel start (find str delimiter start)
      return piece :: rest

def splitString (fuel : Nat) (str delimiter : List α) : Except SplitFailure (List (List α)) :=
  splitLoop str delimiter fuel 0 (find str delimiter 0)

theorem find_eq_some :
    find str delimiter start = some stop ↔ delimiter <+: str.drop stop ∧
      start ≤ stop ∧ stop ≤ str.length ∧
        ∀ i, start ≤ i → i < stop → ¬delimiter <+: str.drop i := by
  rw [find, List.find?_range'_eq_some]
  simp only [List.isPrefixOf_iff_prefix, List.mem_range'_1, Bool.not_eq_true',
    ← Bool.not_eq_true]
  constructor
  · rintro ⟨found, inside, first⟩
    exact ⟨found, by omega, by omega, first⟩
  · rintro ⟨found, behind, inside, first⟩
    exact ⟨found, by omega, first⟩

theorem find_eq_none :
    find str delimiter start = none ↔
      ∀ i, start ≤ i → i ≤ str.length → ¬delimiter <+: str.drop i := by
  rw [find, List.find?_range'_eq_none]
  simp only [List.isPrefixOf_iff_prefix, Bool.not_eq_true', ← Bool.not_eq_true]
  constructor
  · intro absent i behind inside
    exact absent i behind (by omega)
  · intro absent i behind inside
    exact absent i behind (by omega)

omit [DecidableEq α] in
theorem not_isInfix_take {length : Nat} (nonempty : delimiter ≠ [])
    (absent : ∀ i, start ≤ i → i < start + length → ¬delimiter <+: str.drop i) :
    ¬delimiter <:+: (str.drop start).take length := by
  rintro ⟨before, after, inside⟩
  have room : 0 < delimiter.length := List.length_pos_iff.mpr nonempty
  have lengths := congrArg List.length inside
  simp only [List.length_append, List.length_take] at lengths
  apply absent (start + before.length) (by omega) (by omega)
  have front : before ++ delimiter <+: str.drop start := by
    have cut : (before ++ delimiter) ++ after <+: str.drop start := by
      rw [inside]
      exact List.take_prefix _ _
    exact (List.prefix_append _ _).trans cut
  have dropped := front.drop before.length
  rwa [List.drop_left, List.drop_drop] at dropped

/-- The pieces of a string, none with the delimiter in it. -/
structure Pieces (delimiter str : List α) (pieces : List (List α)) : Prop where
  nonempty : pieces ≠ []
  joined : List.intercalate delimiter pieces = str
  clean : ∀ piece ∈ pieces, ¬delimiter <:+: piece

omit [DecidableEq α] in
theorem Pieces.single (clean : ¬delimiter <:+: str) : Pieces delimiter str [str] where
  nonempty := List.cons_ne_nil _ _
  joined := List.intercalate_singleton
  clean := by simpa using clean

omit [DecidableEq α] in
theorem Pieces.cons {piece rest : List α} {pieces : List (List α)}
    (clean : ¬delimiter <:+: piece) (pieces_rest : Pieces delimiter rest pieces) :
    Pieces delimiter (piece ++ delimiter ++ rest) (piece :: pieces) where
  nonempty := List.cons_ne_nil _ _
  joined := by
    rw [List.intercalate_cons_of_ne_nil pieces_rest.nonempty, pieces_rest.joined]
  clean := List.forall_mem_cons.mpr ⟨clean, pieces_rest.clean⟩

theorem splitLoop_last (nonempty : delimiter ≠ []) (inside : start ≤ str.length)
    (absent : find str delimiter start = none) :
    splitLoop str delimiter fuel start none = .ok [str.drop start] ∧
      Pieces delimiter (str.drop start) [str.drop start] := by
  constructor
  · have held : ¬str.length < start := by omega
    cases fuel <;> simp [splitLoop, substr, held, Except.map]
  · apply Pieces.single
    have whole : (str.drop start).take (str.length + 1 - start) = str.drop start :=
      List.take_of_length_le (by simp only [List.length_drop]; omega)
    rw [← whole]
    apply not_isInfix_take nonempty
    intro i behind before
    exact find_eq_none.mp absent i behind (by omega)

/-- What a delimiter at `stop` cuts off, the delimiter, and the rest. -/
theorem drop_of_find (found : find str delimiter start = some stop) :
    (str.drop start).take (stop - start) ++ delimiter ++ str.drop (stop + delimiter.length) =
      str.drop start := by
  obtain ⟨⟨rest, here⟩, behind, -⟩ := find_eq_some.mp found
  have after : str.drop (stop + delimiter.length) = rest := by
    rw [← List.drop_drop, ← here, List.drop_left]
  have reached : str.drop stop = (str.drop start).drop (stop - start) := by
    rw [List.drop_drop]
    congr 1
    omega
  rw [after, List.append_assoc, here, reached, List.take_append_drop]

theorem length_of_find (found : find str delimiter start = some stop) :
    stop + delimiter.length ≤ str.length := by
  obtain ⟨here, -, inside, -⟩ := find_eq_some.mp found
  have length := here.length_le
  rw [List.length_drop] at length
  omega

/-- Every turn passes a delimiter, so the rest of the string leaves room enough. -/
theorem splitLoop_spec (nonempty : delimiter ≠ []) (inside : start ≤ str.length)
    (room : str.length ≤ fuel + start) :
    ∃ pieces, splitLoop str delimiter fuel start (find str delimiter start) = .ok pieces ∧
      Pieces delimiter (str.drop start) pieces := by
  have some : 0 < delimiter.length := List.length_pos_iff.mpr nonempty
  induction fuel generalizing start with
  | zero =>
      cases found : find str delimiter start with
      | none => exact ⟨_, splitLoop_last nonempty inside found⟩
      | some stop =>
          obtain ⟨-, behind, -⟩ := find_eq_some.mp found
          have length := length_of_find found
          omega
  | succ fuel ih =>
      cases found : find str delimiter start with
      | none => exact ⟨_, splitLoop_last nonempty inside found⟩
      | some stop =>
          obtain ⟨-, behind, -, first⟩ := find_eq_some.mp found
          have length := length_of_find found
          obtain ⟨pieces, onward, split⟩ :=
            @ih (stop + delimiter.length) length (by omega)
          have held : ¬str.length < start := by omega
          refine ⟨(str.drop start).take (stop - start) :: pieces, ?_, ?_⟩
          · simp only [splitLoop, substr, if_neg held, onward]
            rfl
          · have clean : ¬delimiter <:+: (str.drop start).take (stop - start) := by
              apply not_isInfix_take nonempty
              intro i late early
              exact first i late (by omega)
            have whole := split.cons clean
            rwa [drop_of_find found] at whole

theorem splitLoop_empty (fuel : Nat) (inside : start ≤ str.length) :
    splitLoop str [] fuel start (find str [] start) = .error .unfinished := by
  have found : find str [] start = some start :=
    find_eq_some.mpr ⟨List.nil_prefix, le_rfl, inside, fun i late early => by omega⟩
  have held : ¬str.length < start := by omega
  induction fuel with
  | zero => rw [found, splitLoop]
  | succ fuel ih =>
      have again : splitLoop str [] fuel (start + ([] : List α).length)
          (find str [] (start + ([] : List α).length)) = .error .unfinished := ih
      rw [found]
      simp only [splitLoop, substr, if_neg held, again]
      rfl

/-- The call comes to an end, the pieces give the string back, and none holds the delimiter. -/
def Lossless (str delimiter : List α) : Prop :=
  ∃ fuel pieces, splitString fuel str delimiter = .ok pieces ∧
    List.intercalate delimiter pieces = str ∧
    (delimiter ≠ [] → ∀ piece ∈ pieces, ¬delimiter <:+: piece)

theorem splitString_spec (nonempty : delimiter ≠ []) (str : List α) :
    ∃ pieces, splitString str.length str delimiter = .ok pieces ∧ Pieces delimiter str pieces :=
  splitLoop_spec nonempty (Nat.zero_le _) le_rfl

/-- An empty delimiter is found at once, again and again. -/
theorem lossless_iff (str delimiter : List α) : Lossless str delimiter ↔ delimiter ≠ [] := by
  constructor
  · rintro ⟨fuel, pieces, split, -⟩ rfl
    rw [splitString, splitLoop_empty fuel (Nat.zero_le _)] at split
    cases split
  · intro nonempty
    obtain ⟨pieces, split, all⟩ := splitString_spec nonempty str
    exact ⟨str.length, pieces, split, all.joined, fun _ => all.clean⟩

theorem lossless_fails :
    (∀ fuel, splitString fuel ['a'] [] = .error .unfinished) ∧ ¬Lossless ['a'] [] := by
  refine ⟨fun fuel => splitLoop_empty fuel (Nat.zero_le _), ?_⟩
  rintro ⟨fuel, pieces, split, -⟩
  rw [splitString, splitLoop_empty fuel (Nat.zero_le _)] at split
  cases split

theorem splitString_eq_splitOn (str : List α) (separator : α) :
    splitString str.length str [separator] = .ok (str.splitOn separator) := by
  obtain ⟨pieces, split, all⟩ := splitString_spec (List.cons_ne_nil separator []) str
  have clean : ∀ piece ∈ pieces, separator ∉ piece := by
    intro piece member inside
    obtain ⟨before, after, rfl⟩ := List.append_of_mem inside
    exact all.clean _ member ⟨before, after, by simp⟩
  rw [split, ← all.joined, List.splitOn_intercalate separator clean all.nonempty]

end StringSplit

end AutoDrop
