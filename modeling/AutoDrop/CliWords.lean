import AutoDrop.CliSplit
import Mathlib.Algebra.Ring.Nat

/-!
Which texts the splitter returns unchanged. A word comes back out of a line exactly if it
has no quote, no blank but directly behind a backslash, and no backslash but before a further
character that is neither a quote nor a backslash; the count of the characters a line can
spend shows that nothing else does.
-/

namespace AutoDrop

open SplitText

/-- The reader of one entry returns the text unchanged. -/
def keeps (stop : Char → Bool) : Chars → Bool
  | [] => true
  | ['\\'] => false
  | '\\' :: c :: rest => !isEscaped c && keeps stop rest
  | c :: rest => !stop c && keeps stop rest

/-- Printed without quotes, the word is read back. -/
def Plain (word : Chars) : Prop := word ≠ [] ∧ keeps endsWord word = true

instance (word : Chars) : Decidable (Plain word) := inferInstanceAs (Decidable (_ ∧ _))

/-- Printed between single quotes, the word is read back. -/
def PlainQuoted (word : Chars) : Prop := word ≠ [] ∧ keeps (· = '\'') word = true

instance (word : Chars) : Decidable (PlainQuoted word) := inferInstanceAs (Decidable (_ ∧ _))

/-- Behind an entry the input ends, or goes on with a character that ends the entry. -/
def Ends (stop : Char → Bool) (tail : Chars) : Prop :=
  tail = [] ∨ ∃ c rest, tail = c :: rest ∧ stop c = true ∧ c ≠ '\\'

section Keeps

variable {stop : Char → Bool} {c : Char} {rest tail word : Chars}

theorem keeps_escaped (literal : isEscaped c = true) : keeps stop ('\\' :: c :: rest) = false := by
  simp [keeps, literal]

theorem keeps_kept (literal : isEscaped c = false) :
    keeps stop ('\\' :: c :: rest) = keeps stop rest := by
  simp [keeps, literal]

theorem keeps_cons (plain : c ≠ '\\') :
    keeps stop (c :: rest) = (!stop c && keeps stop rest) := by
  simp [keeps, plain]

theorem readEntry_of_ends (ends : Ends stop tail) : readEntry stop tail = ([], tail) := by
  rcases ends with rfl | ⟨c, rest, rfl, stops, plain⟩
  · rfl
  · exact readEntry_stop plain stops rest

theorem readEntry_keeps (kept : keeps stop word = true) (ends : Ends stop tail) :
    readEntry stop (word ++ tail) = (word, tail) := by
  induction word using entry_cases stop with
  | nil => exact readEntry_of_ends ends
  | lone => simp [keeps] at kept
  | escaped c rest literal ih => simp [keeps_escaped literal] at kept
  | kept c rest literal ih =>
      rw [keeps_kept literal] at kept
      rw [List.cons_append, List.cons_append, readEntry_kept stop literal, ih kept]
  | stops c rest plain stops => simp [keeps_cons plain, stops] at kept
  | char c rest plain goes ih =>
      rw [keeps_cons plain, goes] at kept
      rw [List.cons_append, readEntry_char plain goes, ih (by simpa using kept)]

theorem replicate_append_backslash (count : Nat) (rest : Chars) :
    List.replicate count '\\' ++ '\\' :: rest = '\\' :: (List.replicate count '\\' ++ rest) := by
  rw [← List.singleton_append, ← List.append_assoc, ← List.replicate_succ', List.replicate_succ,
    List.cons_append]

theorem no_backslashes {count : Nat} {c : Char} {first second : Chars} (plain : c ≠ '\\')
    (same : c :: first = List.replicate count '\\' ++ second) : count = 0 := by
  cases count with
  | zero => rfl
  | succ count =>
      rw [List.replicate_succ, List.cons_append] at same
      exact absurd (List.cons.inj same).1 plain

theorem ne_backslash {c : Char} (literal : isEscaped c = false) : c ≠ '\\' := by
  rintro rfl
  simp [isEscaped] at literal

/-- At a character other than the backslash a reader cannot lag behind. -/
theorem not_lagging {count : Nat} {c : Char} {first rest : Chars} (plain : c ≠ '\\')
    (same : c :: first = List.replicate count '\\' ++ c :: rest) :
    count = 0 ∧ first = List.replicate 0 '\\' ++ rest := by
  obtain rfl := no_backslashes plain same
  exact ⟨rfl, (List.cons.inj same).2⟩

/-- A word that is read back, even with lost backslashes in front, has lost none. -/
theorem keeps_of_lagging (ends : Ends stop tail) {count : Nat}
    (read : (readEntry stop (word ++ tail)).1 = List.replicate count '\\' ++ word) :
    count = 0 ∧ keeps stop word = true := by
  induction word using entry_cases stop generalizing count with
  | nil =>
      rw [List.nil_append, readEntry_of_ends ends, List.append_nil] at read
      exact ⟨(List.replicate_eq_nil_iff _).mp read.symm, rfl⟩
  | lone =>
      rw [replicate_append_backslash, List.append_nil] at read
      rcases ends with rfl | ⟨c, rest, rfl, stops, plain⟩
      · simp [readEntry] at read
      · simp only [List.cons_append, List.nil_append] at read
        cases literal : isEscaped c with
        | true =>
            rw [readEntry_escaped stop literal] at read
            exact absurd (List.cons.inj read).1 plain
        | false =>
            rw [readEntry_kept stop literal] at read
            have behind := (List.cons.inj read).2
            rw [← List.append_nil (List.replicate _ _)] at behind
            obtain rfl := no_backslashes plain behind
            cases behind
  | escaped c rest literal ih =>
      -- the backslash is lost, and the reader lags behind from here on
      rw [List.cons_append, List.cons_append, readEntry_escaped stop literal,
        replicate_append_backslash] at read
      obtain ⟨rfl, later⟩ := List.cons.inj read
      rw [replicate_append_backslash, ← List.cons_append, ← List.replicate_succ] at later
      exact absurd (ih later).1 (Nat.succ_ne_zero count)
  | kept c rest literal ih =>
      rw [List.cons_append, List.cons_append, readEntry_kept stop literal,
        replicate_append_backslash] at read
      obtain ⟨rfl, later⟩ := not_lagging (ne_backslash literal) (List.cons.inj read).2
      rw [keeps_kept literal]
      exact ⟨rfl, (ih later).2⟩
  | stops c rest plain stops =>
      rw [List.cons_append, readEntry_stop plain stops] at read
      simp at read
  | char c rest plain goes ih =>
      rw [List.cons_append, readEntry_char plain goes] at read
      obtain ⟨rfl, later⟩ := not_lagging plain read
      rw [keeps_cons plain, goes]
      exact ⟨rfl, by simpa using (ih later).2⟩

theorem keeps_of_readEntry (ends : Ends stop tail)
    (read : (readEntry stop (word ++ tail)).1 = word) : keeps stop word = true := by
  have none : (readEntry stop (word ++ tail)).1 = List.replicate 0 '\\' ++ word := read
  exact (keeps_of_lagging ends none).2

theorem ends_readEntry (input : Chars) :
    Ends stop (readEntry stop input).2 := by
  induction input using entry_cases stop with
  | nil => exact .inl rfl
  | lone => exact .inl (by simp [readEntry])
  | escaped c rest literal ih =>
      rw [readEntry_escaped stop literal]
      exact ih
  | kept c rest literal ih =>
      rw [readEntry_kept stop literal]
      exact ih
  | stops c rest plain stops =>
      rw [readEntry_stop plain stops]
      exact .inr ⟨c, rest, rfl, stops, plain⟩
  | char c rest plain goes ih =>
      rw [readEntry_char plain goes]
      exact ih

end Keeps

/-- What the entries cost at least: their characters, and a separator for each. -/
def weight (entries : List Chars) : Nat := (entries.map fun entry => entry.length + 1).sum

@[simp] theorem weight_nil : weight [] = 0 := rfl

@[simp] theorem weight_cons (entry : Chars) (entries : List Chars) :
    weight (entry :: entries) = entry.length + 1 + weight entries := by
  simp [weight]

theorem weight_filter_le (entries : List Chars) :
    weight (entries.filter fun entry => !entry.isEmpty) ≤ weight entries := by
  induction entries with
  | nil => exact Nat.le_refl _
  | cons entry rest ih =>
      rw [List.filter_cons]
      split <;> simp only [weight_cons] <;> omega

theorem weight_entriesFrom (input : Chars) : weight (entriesFrom input) ≤ input.length + 1 ∧
    (Ends endsWord input → weight (entriesFrom input) ≤ input.length) := by
  induction size : input.length using Nat.strongRecOn generalizing input with
  | ind size ih =>
      cases input with
      | nil => simp [entriesFrom]
      | cons c rest =>
          simp only [List.length_cons] at size
          by_cases blank : isBlank c = true
          · have later := (ih rest.length (by omega) rest rfl).1
            rw [entriesFrom_blank blank]
            exact ⟨by omega, fun _ => by omega⟩
          by_cases quote : isQuote c = true
          · have length := length_readEntry (· = c) rest
            have later := ih ((readEntry (· = c) rest).2.drop 1).length
              (by rw [List.length_drop]; omega) _ rfl
            rw [entriesFrom_quote quote, weight_cons]
            have closed : weight (entriesFrom ((readEntry (· = c) rest).2.drop 1)) ≤
                (readEntry (· = c) rest).2.length := by
              cases left : (readEntry (· = c) rest).2 with
              | nil => simp [entriesFrom]
              | cons q left =>
                  rw [left, List.drop_one, List.tail_cons] at later
                  simpa using later.1
            exact ⟨by omega, fun _ => by omega⟩
          · have goes : endsWord c = false := by simp_all [endsWord]
            have length := length_readEntry endsWord (c :: rest)
            have shorter := length_readEntry_lt goes rest
            have later := (ih (readEntry endsWord (c :: rest)).2.length (by omega) _ rfl).2
              (ends_readEntry _)
            rw [entriesFrom_word goes, weight_cons]
            simp only [List.length_cons] at length
            refine ⟨by omega, fun ends => ?_⟩
            rcases ends with none | ⟨first, _, same, stops, _⟩
            · cases none
            · simp [← (List.cons.inj same).1, goes] at stops

theorem weight_splitInto (input : Chars) : weight (splitInto input) ≤ input.length + 1 ∧
    (Ends endsWord input → weight (splitInto input) ≤ input.length) := by
  rw [splitInto_eq]
  have less := weight_filter_le (entriesFrom input)
  have bounds := weight_entriesFrom input
  exact ⟨by omega, fun ends => by have bound := bounds.2 ends; omega⟩

section Heads

variable {c q : Char} {rest tail word : Chars} {others : List Chars}

def consEntry (entry : Chars) (entries : List Chars) : List Chars :=
  if entry.isEmpty then entries else entry :: entries

theorem splitInto_nil : splitInto [] = [] := rfl

theorem splitInto_blank (blank : isBlank c = true) : splitInto (c :: rest) = splitInto rest := by
  rw [splitInto_eq, splitInto_eq, entriesFrom_blank blank]

theorem splitInto_quote (quote : isQuote c = true) : splitInto (c :: rest) =
    consEntry (readEntry (· = c) rest).1 (splitInto ((readEntry (· = c) rest).2.drop 1)) := by
  rw [splitInto_eq, splitInto_eq, entriesFrom_quote quote, List.filter_cons, consEntry]
  cases (readEntry (· = c) rest).1 <;> simp

theorem splitInto_word (goes : endsWord c = false) : splitInto (c :: rest) =
    consEntry (readEntry endsWord (c :: rest)).1
      (splitInto (readEntry endsWord (c :: rest)).2) := by
  rw [splitInto_eq, splitInto_eq, entriesFrom_word goes, List.filter_cons, consEntry]
  cases (readEntry endsWord (c :: rest)).1 <;> simp

theorem consEntry_eq_cons {entry : Chars} {entries : List Chars}
    (same : consEntry entry entries = word :: others) :
    entry = [] ∧ entries = word :: others ∨ entry = word ∧ entries = others ∧ entry ≠ [] := by
  cases entry with
  | nil => exact .inl ⟨rfl, same⟩
  | cons c rest =>
      obtain ⟨rfl, rfl⟩ := List.cons.inj same
      exact .inr ⟨rfl, rfl, by simp⟩

theorem weight_consEntry_le (entry : Chars) (entries : List Chars) :
    weight (consEntry entry entries) ≤ entry.length + 1 + weight entries := by
  unfold consEntry
  split <;> simp

theorem head_of_tight {input : Chars} (tight : input.length + 1 ≤ weight (splitInto input))
    (first : splitInto input = word :: others) :
    ∃ c more rest, word = c :: more ∧ input = c :: rest ∧ endsWord c = false := by
  cases input with
  | nil => simp [splitInto_nil] at first
  | cons c rest =>
      have goes : endsWord c = false := by
        cases stops : endsWord c with
        | false => rfl
        | true =>
            have plain : c ≠ '\\' := by
              rintro rfl
              simp [endsWord, isBlank, isQuote] at stops
            have bound := (weight_splitInto (c :: rest)).2 (.inr ⟨c, rest, rfl, stops, plain⟩)
            omega
      rw [splitInto_word goes] at tight first
      by_cases backslash : c = '\\'
      · subst c
        cases rest with
        | nil => simp [readEntry, consEntry, splitInto_nil] at first
        | cons d rest =>
            cases literal : isEscaped d with
            | true =>
                rw [readEntry_escaped endsWord literal] at tight
                have bound := weight_consEntry_le (d :: (readEntry endsWord rest).1)
                  (splitInto (readEntry endsWord rest).2)
                have later := (weight_splitInto (readEntry endsWord rest).2).2 (ends_readEntry rest)
                have length := length_readEntry endsWord rest
                simp only [List.length_cons] at tight bound
                omega
            | false =>
                rw [readEntry_kept endsWord literal] at first
                obtain ⟨rfl, _⟩ := List.cons.inj first
                exact ⟨'\\', _, _, rfl, rfl, rfl⟩
      · rw [readEntry_char backslash goes] at first
        obtain ⟨rfl, _⟩ := List.cons.inj first
        exact ⟨c, _, _, rfl, rfl, goes⟩

theorem weight_sentence (quote : isQuote q = true) (rest : Chars) :
    weight (splitInto (q :: rest)) ≤
      (readEntry (· = q) rest).1.length + 1 + (readEntry (· = q) rest).2.length := by
  rw [splitInto_quote quote]
  have bound := weight_consEntry_le (readEntry (· = q) rest).1
    (splitInto ((readEntry (· = q) rest).2.drop 1))
  have later : weight (splitInto ((readEntry (· = q) rest).2.drop 1)) ≤
      (readEntry (· = q) rest).2.length := by
    cases left : (readEntry (· = q) rest).2 with
    | nil => simp [splitInto_nil]
    | cons stop behind =>
        have bound := (weight_splitInto behind).1
        simpa using bound
  omega

theorem not_mem_of_tight (input : Chars) (quote : isQuote q = true) (tight : input.length ≤
    (readEntry (· = q) input).1.length + (readEntry (· = q) input).2.length) :
    q ∉ (readEntry (· = q) input).1 := by
  induction input using entry_cases (· = q) with
  | nil => simp [readEntry]
  | lone => simp [readEntry]
  | escaped c rest literal ih =>
      have length := length_readEntry (· = q) rest
      rw [readEntry_escaped _ literal] at tight
      simp only [List.length_cons] at tight
      omega
  | kept c rest literal ih =>
      rw [readEntry_kept _ literal] at tight ⊢
      simp only [List.length_cons] at tight
      have apart : q ≠ '\\' ∧ q ≠ c := by
        constructor
        · rintro rfl
          simp [isQuote] at quote
        · rintro rfl
          simp_all [isQuote, isEscaped]
      simpa [apart.1, apart.2] using ih (by omega)
  | stops c rest plain stops =>
      rw [readEntry_stop plain stops]
      simp
  | char c rest plain goes ih =>
      rw [readEntry_char plain goes] at tight ⊢
      simp only [List.length_cons] at tight
      have apart : q ≠ c := by
        rintro rfl
        simp at goes
      simpa [apart] using ih (by omega)

/-- What may stand behind a word of a printed line. -/
def Spaced (tail : Chars) : Prop := tail = [] ∨ ∃ rest, tail = ' ' :: rest

theorem Spaced.ends (spaced : Spaced tail) : Ends endsWord tail := by
  rcases spaced with rfl | ⟨rest, rfl⟩
  · exact .inl rfl
  · exact .inr ⟨' ', rest, rfl, rfl, by simp⟩

theorem endsWord_of_quote (quote : isQuote q = true) : endsWord q = true := by
  simp [endsWord, quote]

theorem endsWord_of_blank (blank : isBlank c = true) : endsWord c = true := by
  simp [endsWord, blank]

theorem tight_head_ordinary {input : Chars} (ends : endsWord c = true)
    (tight : input.length + 1 ≤ weight (splitInto input))
    (first : splitInto input = (c :: word) :: others) : False := by
  obtain ⟨d, more, rest, same, _, goes⟩ := head_of_tight tight first
  obtain ⟨rfl, _⟩ := List.cons.inj same
  simp [ends] at goes

theorem not_quote_escape (spaced : Spaced tail) (quote : isQuote q = true)
    (own : (readEntry (· = q) ('\\' :: rest ++ tail)).1 = q :: '\\' :: rest)
    (spent : (rest ++ tail).length + 1 ≤ (readEntry (· = q) ('\\' :: rest ++ tail)).1.length + 1 +
      (readEntry (· = q) ('\\' :: rest ++ tail)).2.length) : False := by
  have plain : q ≠ '\\' := by
    rintro rfl
    simp [isQuote] at quote
  cases rest with
  | nil =>
      rcases spaced with rfl | ⟨rest, rfl⟩
      · simp [readEntry] at own
      · rw [List.cons_append, List.nil_append, readEntry_kept _ rfl] at own
        exact plain (List.cons.inj own).1.symm
  | cons d rest =>
      simp only [List.cons_append] at own spent
      cases literal : isEscaped d with
      | false =>
          rw [readEntry_kept _ literal] at own
          exact plain (List.cons.inj own).1.symm
      | true =>
          rw [readEntry_escaped _ literal] at own spent
          obtain ⟨rfl, later⟩ := List.cons.inj own
          have absent := not_mem_of_tight (rest ++ tail) quote (by
            simp only [List.length_cons] at spent
            omega)
          simp [later] at absent

theorem not_quote_head (spaced : Spaced tail) (quote : isQuote q = true)
    (first : splitInto (q :: (rest ++ tail)) = (q :: rest) :: others)
    (spent : (rest ++ tail).length ≤ weight (splitInto (q :: (rest ++ tail)))) : False := by
  have plain : q ≠ '\\' := by
    rintro rfl
    simp [isQuote] at quote
  have bound := weight_sentence quote (rest ++ tail)
  have length := length_readEntry (· = q) (rest ++ tail)
  rcases consEntry_eq_cons ((splitInto_quote quote).symm.trans first) with
    ⟨empty, behind⟩ | ⟨own, _, _⟩
  · -- the sentence is closed at once and the entry comes from behind it
    rw [splitInto_quote quote, empty] at spent
    refine tight_head_ordinary (endsWord_of_quote quote) ?_ behind
    cases left : (readEntry (· = q) (rest ++ tail)).2 with
    | nil => simp [left, splitInto_nil] at behind
    | cons stop behind =>
        simp only [left, consEntry, List.isEmpty_nil, ↓reduceIte, List.drop_one,
          List.tail_cons, List.length_cons] at spent length ⊢
        omega
  · cases rest with
    | nil =>
        rcases spaced with rfl | ⟨rest, rfl⟩
        · simp [readEntry] at own
        · have goes : (decide (' ' = q)) = false := by
            rw [decide_eq_false_iff_not]
            rintro rfl
            simp [isQuote] at quote
          rw [List.nil_append, readEntry_char (by simp) goes] at own
          simp [← (List.cons.inj own).1] at goes
    | cons c rest =>
        by_cases backslash : c = '\\'
        · subst c
          exact not_quote_escape spaced quote own (by simpa using Nat.le_trans spent bound)
        · rw [List.cons_append] at own
          by_cases same : c = q
          · rw [readEntry_stop backslash (by simpa using same)] at own
            cases own
          · rw [readEntry_char backslash (by simpa using same)] at own
            exact same (List.cons.inj own).1

theorem not_blank_sentence {b : Char} {behind : Chars} (spaced : Spaced tail)
    (blank : isBlank b = true) (input : rest ++ tail = q :: behind) (quote : isQuote q = true)
    (first : splitInto (q :: behind) = (b :: rest) :: others)
    (spent : (q :: behind).length ≤ weight (splitInto (q :: behind))) : False := by
  have bound := weight_sentence quote behind
  have length := length_readEntry (· = q) behind
  rcases consEntry_eq_cons ((splitInto_quote quote).symm.trans first) with
    ⟨empty, later⟩ | ⟨own, _, _⟩
  · rw [splitInto_quote quote, empty] at spent
    refine tight_head_ordinary (endsWord_of_blank blank) ?_ later
    cases left : (readEntry (· = q) behind).2 with
    | nil => simp [left, splitInto_nil] at later
    | cons stop more =>
        simp only [left, consEntry, List.isEmpty_nil, ↓reduceIte, List.drop_one,
          List.tail_cons, List.length_cons] at spent length ⊢
        omega
  · have absent := not_mem_of_tight behind quote (by
      simp only [List.length_cons] at spent
      omega)
    cases rest with
    | nil =>
        rcases spaced with rfl | ⟨rest, rfl⟩
        · cases input
        · obtain ⟨rfl, _⟩ := List.cons.inj input
          simp [isQuote] at quote
    | cons d rest =>
        obtain ⟨rfl, _⟩ := List.cons.inj input
        simp [own] at absent

theorem head_of_ordinary (goes : endsWord c = false)
    (first : splitInto (c :: rest) = word :: others) :
    ∃ d more, word = d :: more ∧ isBlank d = false := by
  rw [splitInto_word goes] at first
  have unblank : isBlank c = false := by
    simp only [endsWord, Bool.or_eq_false_iff] at goes
    exact goes.1
  by_cases backslash : c = '\\'
  · subst c
    cases rest with
    | nil => simp [readEntry, consEntry, splitInto_nil] at first
    | cons d rest =>
        cases literal : isEscaped d with
        | true =>
            rw [readEntry_escaped endsWord literal] at first
            obtain ⟨rfl, _⟩ := List.cons.inj first
            refine ⟨d, _, rfl, ?_⟩
            simp only [isEscaped, Bool.or_eq_true, decide_eq_true_eq] at literal
            rcases literal with (rfl | rfl) | rfl <;> rfl
        | false =>
            rw [readEntry_kept endsWord literal] at first
            obtain ⟨rfl, _⟩ := List.cons.inj first
            exact ⟨'\\', _, rfl, rfl⟩
  · rw [readEntry_char backslash goes] at first
    obtain ⟨rfl, _⟩ := List.cons.inj first
    exact ⟨c, _, rfl, unblank⟩

theorem not_blank_head {b : Char} (spaced : Spaced tail) (blank : isBlank b = true)
    (first : splitInto (b :: (rest ++ tail)) = (b :: rest) :: others)
    (spent : (rest ++ tail).length ≤ weight (splitInto (b :: (rest ++ tail)))) : False := by
  rw [splitInto_blank blank] at first spent
  have stopsHere := endsWord_of_blank blank
  cases input : rest ++ tail with
  | nil => simp [input, splitInto_nil] at first
  | cons c behind =>
      rw [input] at first spent
      by_cases again : isBlank c = true
      · rw [splitInto_blank again] at first spent
        exact tight_head_ordinary stopsHere spent first
      by_cases quote : isQuote c = true
      · exact not_blank_sentence spaced blank input quote first spent
      · have goes : endsWord c = false := by simp_all [endsWord]
        obtain ⟨d, more, same, ordinary⟩ := head_of_ordinary goes first
        obtain ⟨rfl, _⟩ := List.cons.inj same
        simp [blank] at ordinary

end Heads

section Lines

variable {tail word : Chars} {words others : List Chars}

theorem ordinary_of_keeps {c : Char} {rest : Chars}
    (kept : keeps endsWord (c :: rest) = true) : endsWord c = false := by
  by_cases backslash : c = '\\'
  · rw [backslash]
    rfl
  · rw [keeps_cons backslash] at kept
    simp only [Bool.and_eq_true, Bool.not_eq_eq_eq_not, Bool.not_true] at kept
    exact kept.1

theorem splitInto_plain (plain : Plain word) (ends : Ends endsWord tail) :
    splitInto (word ++ tail) = word :: splitInto tail := by
  obtain ⟨nonempty, kept⟩ := plain
  cases word with
  | nil => exact absurd rfl nonempty
  | cons c rest =>
      have read := readEntry_keeps kept ends
      rw [List.cons_append] at read ⊢
      rw [splitInto_word (ordinary_of_keeps kept), read]
      rfl

/-- A printed word that comes back first is plain, where at most two characters are lost. -/
theorem plain_of_splitInto (spaced : Spaced tail) (nonempty : word ≠ [])
    (first : splitInto (word ++ tail) = word :: others)
    (spent : (word ++ tail).length ≤ weight (splitInto (word ++ tail)) + 1) :
    Plain word ∧ splitInto tail = others := by
  have kept : keeps endsWord word = true := by
    cases word with
    | nil => exact absurd rfl nonempty
    | cons c rest =>
        rw [List.cons_append] at first spent
        have spent' : (rest ++ tail).length ≤ weight (splitInto (c :: (rest ++ tail))) := by
          simpa using spent
        by_cases blank : isBlank c = true
        · exact (not_blank_head spaced blank first spent').elim
        by_cases quote : isQuote c = true
        · exact (not_quote_head spaced quote first spent').elim
        have goes : endsWord c = false := by simp_all [endsWord]
        rcases consEntry_eq_cons ((splitInto_word goes).symm.trans first) with
          ⟨empty, later⟩ | ⟨own, _, _⟩
        · by_cases backslash : c = '\\'
          · subst c
            cases input : rest ++ tail with
            | nil => simp [input, readEntry, splitInto_nil] at later
            | cons d more =>
                rw [input, readEntry] at empty
                cases literal : isEscaped d <;> simp [literal] at empty
          · rw [readEntry_char backslash goes] at empty
            cases empty
        · exact keeps_of_readEntry spaced.ends own
  refine ⟨⟨nonempty, kept⟩, ?_⟩
  rw [splitInto_plain ⟨nonempty, kept⟩ spaced.ends] at first
  exact (List.cons.inj first).2

def printWords (words : List Chars) : Chars := words.flatMap fun word => ' ' :: word

theorem spaced_printWords (spaced : Spaced tail) : Spaced (printWords words ++ tail) := by
  cases words with
  | nil => exact spaced
  | cons word rest => exact .inr ⟨word ++ (printWords rest ++ tail), by simp [printWords]⟩

theorem printWords_cons (word : Chars) (words : List Chars) :
    printWords (word :: words) ++ tail = ' ' :: (word ++ (printWords words ++ tail)) := by
  simp [printWords]

theorem splitInto_printWords (plain : ∀ word ∈ words, Plain word) (spaced : Spaced tail) :
    splitInto (printWords words ++ tail) = words ++ splitInto tail := by
  induction words with
  | nil => rfl
  | cons word rest ih =>
      rw [printWords_cons, splitInto_blank rfl,
        splitInto_plain (plain word (by simp)) (spaced_printWords spaced).ends,
        ih fun other member => plain other (List.mem_cons_of_mem _ member)]
      rfl

theorem plain_of_printWords (spaced : Spaced tail) (nonempty : ∀ word ∈ words, word ≠ [])
    (first : splitInto (printWords words ++ tail) = words ++ others)
    (spent : (printWords words ++ tail).length ≤
      weight (splitInto (printWords words ++ tail)) + 2) :
    (∀ word ∈ words, Plain word) ∧ splitInto tail = others := by
  induction words with
  | nil => exact ⟨by simp, first⟩
  | cons word rest ih =>
      rw [printWords_cons] at first spent
      rw [splitInto_blank rfl] at first spent
      rw [List.cons_append] at first
      simp only [List.length_cons] at spent
      obtain ⟨plain, behind⟩ := plain_of_splitInto (spaced_printWords spaced)
        (nonempty word (by simp)) first (by omega)
      have total : weight (splitInto (word ++ (printWords rest ++ tail))) =
          word.length + 1 + weight (rest ++ others) := by
        rw [first, weight_cons]
      rw [List.length_append] at spent
      obtain ⟨later, last⟩ := ih
        (fun other member => nonempty other (List.mem_cons_of_mem _ member)) behind
        (by rw [behind]; omega)
      refine ⟨fun other member => ?_, last⟩
      rcases List.mem_cons.mp member with rfl | member
      · exact plain
      · exact later other member

theorem weight_append (first second : List Chars) :
    weight (first ++ second) = weight first + weight second := by
  simp [weight]

theorem length_printWords (words : List Chars) : (printWords words).length = weight words := by
  induction words with
  | nil => rfl
  | cons word rest ih =>
      have step : printWords (word :: rest) = ' ' :: (word ++ printWords rest) := by
        simp [printWords]
      rw [step, weight_cons, List.length_cons, List.length_append, ih]
      omega

theorem plain_iff_printWords (nonempty : ∀ word ∈ words, word ≠ []) :
    words <+: splitInto (printWords words) ↔ ∀ word ∈ words, Plain word := by
  have spaced : Spaced [] := .inl rfl
  constructor
  · rintro ⟨others, same⟩
    refine (plain_of_printWords spaced nonempty (by simpa using same.symm) ?_).1
    rw [List.append_nil, ← same, weight_append, length_printWords]
    omega
  · intro plain
    have read := splitInto_printWords plain spaced
    rw [List.append_nil, splitInto_nil, List.append_nil] at read
    exact read.symm ▸ List.prefix_rfl

end Lines

end AutoDrop
