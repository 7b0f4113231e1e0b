import Mathlib.Data.List.TakeWhile

/-!
Codes whose words can be told apart while they arrive. A parser answers with the first
value and what is left behind it, and with nothing on a word that is cut off.
-/

structure PrefixCode (Symbol Value : Type*) where
  encode : Value → List Symbol
  parse : List Symbol → Option (Value × List Symbol)
  parse_encode : ∀ value rest, parse (encode value ++ rest) = some (value, rest)
  parse_cut : ∀ value part missing, encode value = part ++ missing → missing ≠ [] →
    parse part = none

namespace PrefixCode

universe u

variable {Symbol Value Other : Type*}

def literal [DecidableEq Symbol] (text : List Symbol) : PrefixCode Symbol Unit where
  encode _ := text
  parse input := if text <+: input then some ((), input.drop text.length) else none
  parse_encode _ rest := by simp
  parse_cut _ part missing same lost := by
    refine if_neg fun front => ?_
    have bound := front.length_le
    have positive := List.length_pos_iff.mpr lost
    rw [same, List.length_append] at bound
    omega

/-- As many symbols as are told. -/
def fixed (count : Nat) : PrefixCode Symbol { text : List Symbol // text.length = count } where
  encode text := text.val
  parse input :=
    if enough : count ≤ input.length then
      some (⟨input.take count, List.length_take_of_le enough⟩, input.drop count)
    else none
  parse_encode text rest := by
    obtain ⟨text, rfl⟩ := text
    simp
  parse_cut text part missing same lost := by
    have positive := List.length_pos_iff.mpr lost
    have size := congrArg List.length same
    rw [text.property, List.length_append] at size
    exact dif_neg (by omega)

def parseChoice [DecidableEq Symbol] (left right : Symbol) :
    List Symbol → Option (Bool × List Symbol)
  | [] => none
  | symbol :: rest =>
      if symbol = left then some (true, rest)
      else if symbol = right then some (false, rest)
      else none

/-- One of two symbols. -/
def choice [DecidableEq Symbol] (left right : Symbol) (apart : left ≠ right) :
    PrefixCode Symbol Bool where
  encode isLeft := [if isLeft then left else right]
  parse := parseChoice left right
  parse_encode isLeft rest := by
    cases isLeft with
    | true => simp [parseChoice]
    | false => simp [parseChoice, apart.symm]
  parse_cut isLeft part missing same lost := by
    have empty : part = [] := by
      have size := congrArg List.length same
      have positive := List.length_pos_iff.mpr lost
      rw [List.length_singleton, List.length_append] at size
      exact List.eq_nil_of_length_eq_zero (by omega)
    rw [empty, parseChoice]

/-- Symbols of one kind up to a stop of another. -/
def terminated [DecidableEq Symbol] (inside : Symbol → Bool) (stop : Symbol)
    (apart : inside stop = false) :
    PrefixCode Symbol { text : List Symbol // ∀ symbol ∈ text, inside symbol = true } where
  encode text := text.val ++ [stop]
  parse input :=
    match input.dropWhile inside with
    | [] => none
    | symbol :: rest =>
        if symbol = stop then
          some (⟨input.takeWhile inside, fun _ => List.mem_takeWhile_imp⟩, rest)
        else none
  parse_encode text rest := by
    obtain ⟨text, all⟩ := text
    have behind : (text ++ [stop] ++ rest).dropWhile inside = stop :: rest := by
      rw [List.append_assoc, List.dropWhile_append_of_pos all]
      simp [apart]
    have front : (text ++ [stop] ++ rest).takeWhile inside = text := by
      rw [List.append_assoc, List.takeWhile_append_of_pos all]
      simp [apart]
    simp only [behind, front, ↓reduceIte]
  parse_cut text part missing same lost := by
    obtain ⟨rest, symbol, rfl⟩ := List.eq_nil_or_concat missing |>.resolve_left lost
    rw [List.concat_eq_append, ← List.append_assoc] at same
    have front : text.val = part ++ rest := (List.append_inj' same rfl).1
    have all : part.dropWhile inside = [] := by
      rw [List.dropWhile_eq_nil_iff]
      exact fun symbol member => text.property symbol (by simp [front, member])
    simp only [all]

/-- A word of the first code, and one of the code that its value selects. -/
def bind {Next : Value → Type*} (first : PrefixCode Symbol Value)
    (second : ∀ value, PrefixCode Symbol (Next value)) :
    PrefixCode Symbol (Σ value, Next value) where
  encode pair := first.encode pair.1 ++ (second pair.1).encode pair.2
  parse input :=
    match first.parse input with
    | none => none
    | some (value, rest) =>
        ((second value).parse rest).map fun (next, behind) => (⟨value, next⟩, behind)
  parse_encode pair rest := by
    rw [List.append_assoc, first.parse_encode]
    simp only [(second pair.1).parse_encode, Option.map_some]
  parse_cut pair part missing same lost := by
    rcases List.append_eq_append_iff.mp same with ⟨more, rfl, later⟩ | ⟨more, earlier, rfl⟩
    · rw [first.parse_encode]
      simp only [(second pair.1).parse_cut pair.2 more missing later lost, Option.map_none]
    · by_cases whole : more = []
      · subst whole
        have read := first.parse_encode pair.1 []
        rw [earlier, List.append_nil, List.append_nil] at read
        have cut := (second pair.1).parse_cut pair.2 [] _ rfl (by simpa using lost)
        simp only [read, cut, Option.map_none]
      · simp only [first.parse_cut pair.1 part more earlier whole]

/-- The same words for other values. -/
def map (code : PrefixCode Symbol Value) (forth : Value → Other) (back : Other → Value)
    (inverse : ∀ other, forth (back other) = other) : PrefixCode Symbol Other where
  encode other := code.encode (back other)
  parse input := (code.parse input).map fun (value, rest) => (forth value, rest)
  parse_encode other rest := by
    simp only [code.parse_encode, Option.map_some, inverse]
  parse_cut other part missing same lost := by
    rw [code.parse_cut _ part missing same lost, Option.map_none]

/-- A word of one of two codes, behind the symbol that tells which. -/
def either {First Second : Type u} [DecidableEq Symbol] (left right : Symbol)
    (apart : left ≠ right) (first : PrefixCode Symbol First) (second : PrefixCode Symbol Second) :
    PrefixCode Symbol (First ⊕ Second) :=
  ((choice left right apart).bind fun isLeft =>
    (match isLeft with
      | true => first
      | false => second : PrefixCode Symbol (cond isLeft First Second))).map
    (fun
      | ⟨true, value⟩ => .inl value
      | ⟨false, value⟩ => .inr value)
    (fun
      | .inl value => ⟨true, value⟩
      | .inr value => ⟨false, value⟩)
    fun
      | .inl _ => rfl
      | .inr _ => rfl

/-- As many words as are told. -/
def repeated [DecidableEq Symbol] (code : PrefixCode Symbol Value) :
    ∀ count, PrefixCode Symbol { values : List Value // values.length = count }
  | 0 => (literal []).map (fun _ => ⟨[], rfl⟩) (fun _ => ()) fun values =>
      Subtype.ext (List.length_eq_zero_iff.mp values.property).symm
  | count + 1 => (code.bind fun _ => code.repeated count).map
      (fun pair => ⟨pair.1 :: pair.2.val, by rw [List.length_cons, pair.2.property]⟩)
      (fun values => ⟨values.val.head (List.ne_nil_of_length_eq_add_one values.property),
        ⟨values.val.tail, by rw [List.length_tail, values.property]; rfl⟩⟩)
      fun values => Subtype.ext (List.cons_head_tail _)

/-! Streams of words. -/

def stream (code : PrefixCode Symbol Value) (values : List Value) : List Symbol :=
  values.flatMap code.encode

variable (code : PrefixCode Symbol Value)

@[simp] theorem stream_nil : code.stream [] = [] := rfl

@[simp] theorem stream_cons (value : Value) (values : List Value) :
    code.stream (value :: values) = code.encode value ++ code.stream values := rfl

@[simp] theorem stream_append (first second : List Value) :
    code.stream (first ++ second) = code.stream first ++ code.stream second := by
  simp [stream]

theorem parse_nil (value : Value) (nonempty : code.encode value ≠ []) : code.parse [] = none :=
  code.parse_cut value [] _ rfl nonempty

/-- The front of a stream: either it has no whole word, or its first word is the stream's. -/
theorem parse_front (nonempty : ∀ value, code.encode value ≠ []) [Nonempty Value]
    {values : List Value} {part missing : List Symbol}
    (same : part ++ missing = code.stream values) :
    code.parse part = none ∨
      ∃ value later rest, values = value :: later ∧ part = code.encode value ++ rest ∧
        rest ++ missing = code.stream later ∧ code.parse part = some (value, rest) := by
  cases values with
  | nil =>
      obtain ⟨rfl, -⟩ := List.append_eq_nil_iff.mp same
      obtain ⟨value⟩ := ‹Nonempty Value›
      exact .inl (code.parse_nil value (nonempty value))
  | cons value later =>
      rcases List.append_eq_append_iff.mp same with ⟨more, word, rfl⟩ | ⟨rest, rfl, behind⟩
      · by_cases whole : more = []
        · subst whole
          refine .inr ⟨value, later, [], rfl, by simpa using word.symm, rfl, ?_⟩
          simpa [word] using code.parse_encode value []
        · exact .inl (code.parse_cut value part more word whole)
      · exact .inr ⟨value, later, rest, rfl, rfl, behind.symm, code.parse_encode value rest⟩

end PrefixCode
