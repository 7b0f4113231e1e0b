import AutoDrop.CliWords

/-!
Sentences between quotes, and the words that a line of the command line can deliver at all.
-/

namespace AutoDrop

open SplitText

def printQuoted (word : Chars) : Chars := ' ' :: '\'' :: (word ++ ['\''])

theorem spaced_printQuoted (word : Chars) : Spaced (printQuoted word) := .inr ⟨_, rfl⟩

theorem length_printQuoted (word : Chars) : (printQuoted word).length = word.length + 3 := by
  simp [printQuoted]

theorem ends_singleQuote : Ends (· = '\'') ['\''] := .inr ⟨'\'', [], rfl, by simp, by simp⟩

theorem splitInto_printQuoted {word : Chars} (plain : PlainQuoted word) :
    splitInto (printQuoted word) = [word] := by
  have read := readEntry_keeps plain.2 ends_singleQuote
  rw [printQuoted, splitInto_blank rfl, splitInto_quote rfl, read, consEntry, if_neg]
  · rfl
  · simpa using plain.1

theorem plainQuoted_of_splitInto {word : Chars} {others : List Chars} (nonempty : word ≠ [])
    (first : splitInto (printQuoted word) = word :: others) : PlainQuoted word := by
  rw [printQuoted, splitInto_blank rfl, splitInto_quote rfl] at first
  rcases consEntry_eq_cons first with ⟨empty, later⟩ | ⟨own, _, _⟩
  · -- the sentence is closed at once, so what is left is too short for the word
    cases word with
    | nil => exact absurd rfl nonempty
    | cons c rest =>
        exfalso
        have same : c = '\'' := by
          by_contra other
          by_cases backslash : c = '\\'
          · subst c
            cases input : rest ++ ['\''] with
            | nil => simp at input
            | cons d more =>
                rw [List.cons_append, input] at empty
                cases literal : isEscaped d with
                | true => simp [readEntry_escaped _ literal] at empty
                | false => simp [readEntry_kept _ literal] at empty
          · rw [List.cons_append, readEntry_char backslash (by simpa using other)] at empty
            cases empty
        subst c
        rw [List.cons_append, readEntry_stop (by simp) (by simp), List.drop_one,
          List.tail_cons] at later
        refine tight_head_ordinary (endsWord_of_quote rfl) ?_ later
        rw [later, weight_cons]
        simp only [List.length_append, List.length_cons, List.length_nil]
        omega
  · exact ⟨nonempty, keeps_of_readEntry ends_singleQuote own⟩

/-! A word between double quotes comes back if quotes and backslashes in it are escaped. -/

def escapeChar (c : Char) : Chars := if isEscaped c then ['\\', c] else [c]

def escape (word : Chars) : Chars := word.flatMap escapeChar

theorem readEntry_escape (word tail : Chars) :
    readEntry (· = '"') (escape word ++ '"' :: tail) = (word, '"' :: tail) := by
  induction word with
  | nil => exact readEntry_stop (by simp) (by simp) tail
  | cons c rest ih =>
      have step : escape (c :: rest) = escapeChar c ++ escape rest := rfl
      rw [step, List.append_assoc, escapeChar]
      cases literal : isEscaped c with
      | true =>
          simp only [↓reduceIte, List.cons_append, List.nil_append]
          rw [readEntry_escaped _ literal, ih]
      | false =>
          have ordinary : c ≠ '\\' ∧ c ≠ '"' := by
            constructor <;> rintro rfl <;> simp [isEscaped] at literal
          simp only [Bool.false_eq_true, ↓reduceIte, List.cons_append, List.nil_append]
          rw [readEntry_char ordinary.1 (by simp [ordinary.2]), ih]

def escapeWords (words : List Chars) : Chars :=
  words.flatMap fun word => '"' :: (escape word ++ ['"'])

theorem splitInto_escapeWords {words : List Chars} (nonempty : ∀ word ∈ words, word ≠ []) :
    splitInto (escapeWords words) = words := by
  induction words with
  | nil => rfl
  | cons word rest ih =>
      have step : escapeWords (word :: rest) = '"' :: (escape word ++ '"' :: escapeWords rest) := by
        simp [escapeWords]
      rw [step, splitInto_quote rfl, readEntry_escape, List.drop_one, List.tail_cons,
        ih fun other member => nonempty other (List.mem_cons_of_mem _ member), consEntry, if_neg]
      simpa using nonempty word (by simp)

theorem mem_readEntry {stop : Char → Bool} {input : Chars} {c : Char} :
    (c ∈ (readEntry stop input).1 → c ∈ input) ∧ (c ∈ (readEntry stop input).2 → c ∈ input) := by
  induction input using entry_cases stop with
  | nil => simp [readEntry]
  | lone => simp [readEntry]
  | escaped d rest literal ih =>
      rw [readEntry_escaped stop literal]
      simp only [List.mem_cons]
      grind
  | kept d rest literal ih =>
      rw [readEntry_kept stop literal]
      simp only [List.mem_cons]
      grind
  | stops d rest plain stops =>
      rw [readEntry_stop plain stops]
      simp
  | char d rest plain goes ih =>
      rw [readEntry_char plain goes]
      simp only [List.mem_cons]
      grind

theorem mem_of_mem_entriesFrom (input : Chars) {word : Chars} {c : Char}
    (listed : word ∈ entriesFrom input) (member : c ∈ word) : c ∈ input := by
  induction input using entriesFrom.induct with
  | case1 => simp [entriesFrom] at listed
  | case2 d rest blank ih =>
      rw [entriesFrom_blank blank] at listed
      exact List.mem_cons_of_mem _ (ih listed)
  | case3 d rest blank quote ih =>
      rw [entriesFrom_quote quote] at listed
      rcases List.mem_cons.mp listed with rfl | listed
      · exact List.mem_cons_of_mem _ (mem_readEntry.1 member)
      · exact List.mem_cons_of_mem _ (mem_readEntry.2 (List.mem_of_mem_drop (ih listed)))
  | case4 d rest blank quote ih =>
      rw [entriesFrom_word (by simp_all [endsWord])] at listed
      rcases List.mem_cons.mp listed with rfl | listed
      · exact mem_readEntry.1 member
      · exact mem_readEntry.2 (ih listed)

/-- A word that an input line can deliver: a line holds no newline. -/
def Delivered (words : List Chars) : Prop := ∃ line, '\n' ∉ line ∧ splitInto line = words

theorem delivered_iff {words : List Chars} :
    Delivered words ↔ ∀ word ∈ words, word ≠ [] ∧ '\n' ∉ word := by
  constructor
  · rintro ⟨line, single, rfl⟩ word member
    rw [splitInto_eq, List.mem_filter] at member
    refine ⟨by simpa using member.2, fun newline => single ?_⟩
    exact mem_of_mem_entriesFrom line member.1 newline
  · intro ordinary
    refine ⟨escapeWords words, fun newline => ?_, splitInto_escapeWords fun word member =>
      (ordinary word member).1⟩
    simp only [escapeWords, escape, escapeChar, List.mem_flatMap, List.mem_cons,
      List.mem_append] at newline
    obtain ⟨word, member, newline⟩ := newline
    have absent := (ordinary word member).2
    have inside : ∀ c ∈ word, '\n' ∉ if isEscaped c then ['\\', c] else [c] := by
      intro c listed
      have other : '\n' ≠ c := by
        rintro rfl
        exact absent listed
      split <;> simp [other]
    rcases newline with quote | ⟨c, listed, newline⟩ | close
    · simp at quote
    · exact inside c listed newline
    · simp at close

end AutoDrop
