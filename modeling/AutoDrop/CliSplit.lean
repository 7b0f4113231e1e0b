import Mathlib.Data.List.Basic

/-!
The line splitter of the command line, `Text` of split.h. A blank ends a word, a quote
begins a sentence that only the same quote ends, and a backslash takes a quote or a
backslash literally and stays in front of every other character.
-/

namespace AutoDrop

abbrev Chars := List Char

instance : LawfulBEq Chars := inferInstance

inductive SplitState
  | space
  | word
  | sentence
  | escape
deriving DecidableEq, Repr

inductive SentenceType
  | quote
  | doubleQuote
deriving DecidableEq, Repr

structure SplitText where
  state : SplitState
  prevState : SplitState
  sentenceType : SentenceType
  splitResult : List Chars
deriving DecidableEq, Repr

def isBlank (c : Char) : Bool := c = ' ' || c = '\t' || c = '\n'

def isQuote (c : Char) : Bool := c = '"' || c = '\''

/-- The characters that a backslash takes literally. -/
def isEscaped (c : Char) : Bool := c = '"' || c = '\'' || c = '\\'

def sentenceTypeOf (c : Char) : SentenceType := if c = '"' then .doubleQuote else .quote

namespace SplitText

def reset : SplitText := ⟨.space, .space, .doubleQuote, []⟩

def appendBack (text : SplitText) (chars : Chars) : SplitText :=
  { text with
    splitResult := text.splitResult.dropLast ++ [text.splitResult.getLastD [] ++ chars] }

def newSentence (text : SplitText) (c : Char) : SplitText :=
  { text with
    state := .sentence
    sentenceType := sentenceTypeOf c
    splitResult := text.splitResult ++ [[]] }

def evalSpace (text : SplitText) (c : Char) : SplitText :=
  if isBlank c then text
  else if isQuote c then text.newSentence c
  else if c = '\\' then
    { text with prevState := .word, state := .escape, splitResult := text.splitResult ++ [[]] }
  else { text with state := .word, splitResult := text.splitResult ++ [[c]] }

def evalWord (text : SplitText) (c : Char) : SplitText :=
  if isBlank c then { text with state := .space }
  else if isQuote c then text.newSentence c
  else if c = '\\' then { text with prevState := text.state, state := .escape }
  else text.appendBack [c]

def evalSentence (text : SplitText) (c : Char) : SplitText :=
  if isQuote c then
    if sentenceTypeOf c = text.sentenceType then { text with state := .space }
    else text.appendBack [c]
  else if c = '\\' then { text with prevState := text.state, state := .escape }
  else text.appendBack [c]

def evalEscape (text : SplitText) (c : Char) : SplitText :=
  { text.appendBack (if isEscaped c then [c] else ['\\', c]) with state := text.prevState }

def eval (text : SplitText) (c : Char) : SplitText :=
  match text.state with
  | .space => text.evalSpace c
  | .word => text.evalWord c
  | .sentence => text.evalSentence c
  | .escape => text.evalEscape c

def splitInto (input : Chars) : List Chars :=
  (input.foldl eval reset).splitResult.filter fun entry => !entry.isEmpty

end SplitText

/-! What the splitter delivers, entry by entry. -/

/-- The rest of an entry that `stop` ends, and what is left from the stop on. -/
def readEntry (stop : Char → Bool) : Chars → Chars × Chars
  | [] => ([], [])
  | ['\\'] => ([], [])
  | '\\' :: c :: rest =>
      ((if isEscaped c then [c] else ['\\', c]) ++ (readEntry stop rest).1, (readEntry stop rest).2)
  | c :: rest =>
      if stop c then ([], c :: rest) else (c :: (readEntry stop rest).1, (readEntry stop rest).2)

def endsWord (c : Char) : Bool := isBlank c || isQuote c

theorem readEntry_escaped (stop : Char → Bool) {c : Char} (escaped : isEscaped c = true)
    (rest : Chars) : readEntry stop ('\\' :: c :: rest) =
      (c :: (readEntry stop rest).1, (readEntry stop rest).2) := by
  simp [readEntry, escaped]

theorem readEntry_kept (stop : Char → Bool) {c : Char} (kept : isEscaped c = false)
    (rest : Chars) : readEntry stop ('\\' :: c :: rest) =
      ('\\' :: c :: (readEntry stop rest).1, (readEntry stop rest).2) := by
  simp [readEntry, kept]

theorem readEntry_stop {stop : Char → Bool} {c : Char} (plain : c ≠ '\\') (stops : stop c = true)
    (rest : Chars) : readEntry stop (c :: rest) = ([], c :: rest) := by
  simp [readEntry, plain, stops]

theorem readEntry_char {stop : Char → Bool} {c : Char} (plain : c ≠ '\\')
    (goes : stop c = false) (rest : Chars) : readEntry stop (c :: rest) =
      (c :: (readEntry stop rest).1, (readEntry stop rest).2) := by
  simp [readEntry, plain, goes]

@[elab_as_elim]
theorem entry_cases (stop : Char → Bool) {motive : Chars → Prop} (input : Chars)
    (nil : motive []) (lone : motive ['\\'])
    (escaped : ∀ c rest, isEscaped c = true → motive rest → motive ('\\' :: c :: rest))
    (kept : ∀ c rest, isEscaped c = false → motive rest → motive ('\\' :: c :: rest))
    (stops : ∀ c rest, c ≠ '\\' → stop c = true → motive (c :: rest))
    (char : ∀ c rest, c ≠ '\\' → stop c = false → motive rest → motive (c :: rest)) :
    motive input := by
  induction length : input.length using Nat.strongRecOn generalizing input with
  | ind size ih =>
      cases input with
      | nil => exact nil
      | cons c rest =>
          by_cases backslash : c = '\\'
          · subst c
            cases rest with
            | nil => exact lone
            | cons c rest =>
                have shorter := ih rest.length (by simp at length; omega) rest rfl
                cases literal : isEscaped c with
                | true => exact escaped c rest literal shorter
                | false => exact kept c rest literal shorter
          · cases ends : stop c with
            | true => exact stops c rest backslash ends
            | false =>
                exact char c rest backslash ends
                  (ih rest.length (by simp at length; omega) rest rfl)

theorem length_readEntry (stop : Char → Bool) (input : Chars) :
    (readEntry stop input).1.length + (readEntry stop input).2.length ≤ input.length := by
  induction input using entry_cases stop with
  | nil => simp [readEntry]
  | lone => simp [readEntry]
  | escaped c rest literal ih =>
      rw [readEntry_escaped stop literal]
      simp only [List.length_cons]
      omega
  | kept c rest literal ih =>
      rw [readEntry_kept stop literal]
      simp only [List.length_cons]
      omega
  | stops c rest plain ends =>
      rw [readEntry_stop plain ends]
      simp
  | char c rest plain goes ih =>
      rw [readEntry_char plain goes]
      simp only [List.length_cons]
      omega

theorem length_readEntry_lt {stop : Char → Bool} {c : Char} (goes : stop c = false)
    (rest : Chars) : (readEntry stop (c :: rest)).2.length < rest.length + 1 := by
  by_cases backslash : c = '\\'
  · subst c
    cases rest with
    | nil => simp [readEntry]
    | cons c rest =>
        have bound := length_readEntry stop rest
        rw [readEntry]
        simp only [List.length_cons]
        omega
  · have bound := length_readEntry stop rest
    rw [readEntry_char backslash goes]
    simp only
    omega

/-- The entries of an input that begins between two words. -/
def entriesFrom : Chars → List Chars
  | [] => []
  | c :: rest =>
      if isBlank c then entriesFrom rest
      else if isQuote c then
        (readEntry (· = c) rest).1 :: entriesFrom ((readEntry (· = c) rest).2.drop 1)
      else
        (readEntry endsWord (c :: rest)).1 :: entriesFrom (readEntry endsWord (c :: rest)).2
termination_by input => input.length
decreasing_by
  · simp
  · have bound := length_readEntry (· = c) rest
    simp only [List.length_drop, List.length_cons]
    omega
  · rename_i unblank unquote
    simp only [List.length_cons]
    exact length_readEntry_lt (by simp_all [endsWord]) rest

theorem entriesFrom_blank {c : Char} (blank : isBlank c = true) (rest : Chars) :
    entriesFrom (c :: rest) = entriesFrom rest := by
  rw [entriesFrom, if_pos blank]

theorem entriesFrom_quote {c : Char} (quote : isQuote c = true) (rest : Chars) :
    entriesFrom (c :: rest) =
      (readEntry (· = c) rest).1 :: entriesFrom ((readEntry (· = c) rest).2.drop 1) := by
  have unblank : isBlank c = false := by
    simp only [isQuote, Bool.or_eq_true, decide_eq_true_eq] at quote
    rcases quote with rfl | rfl <;> rfl
  rw [entriesFrom, if_neg (by simp [unblank]), if_pos quote]

theorem entriesFrom_word {c : Char} (goes : endsWord c = false) (rest : Chars) :
    entriesFrom (c :: rest) =
      (readEntry endsWord (c :: rest)).1 :: entriesFrom (readEntry endsWord (c :: rest)).2 := by
  simp only [endsWord, Bool.or_eq_false_iff] at goes
  rw [entriesFrom, if_neg (by simp [goes.1]), if_neg (by simp [goes.2])]

namespace SplitText

/-- What the machine makes of an input in each of its three lasting states. -/
structure Reads (input : Chars) : Prop where
  space : ∀ text : SplitText, text.state = .space →
    (input.foldl eval text).splitResult = text.splitResult ++ entriesFrom input
  word : ∀ (text : SplitText) (done : List Chars) (entry : Chars), text.state = .word →
    text.splitResult = done ++ [entry] →
      (input.foldl eval text).splitResult =
        done ++ (entry ++ (readEntry endsWord input).1) :: entriesFrom (readEntry endsWord input).2
  sentence : ∀ (text : SplitText) (done : List Chars) (entry : Chars) (q : Char),
    isQuote q = true → text.state = .sentence → text.sentenceType = sentenceTypeOf q →
    text.splitResult = done ++ [entry] →
      (input.foldl eval text).splitResult =
        done ++ (entry ++ (readEntry (· = q) input).1) ::
          entriesFrom ((readEntry (· = q) input).2.drop 1)

theorem sentenceTypeOf_inj {c q : Char} (left : isQuote c = true) (right : isQuote q = true)
    (same : sentenceTypeOf c = sentenceTypeOf q) : c = q := by
  simp only [isQuote, Bool.or_eq_true, decide_eq_true_eq] at left right
  rcases left with rfl | rfl <;> rcases right with rfl | rfl <;>
    first | rfl | simp [sentenceTypeOf] at same

theorem backslash_ordinary : isBlank '\\' = false ∧ isQuote '\\' = false := ⟨rfl, rfl⟩

theorem reads_nil : Reads [] where
  space text _ := by simp [entriesFrom]
  word text done entry _ last := by simp [readEntry, entriesFrom, last]
  sentence text done entry q _ _ _ last := by simp [readEntry, entriesFrom, last]

theorem eval_sentence_backslash {text : SplitText} (state : text.state = .sentence) :
    text.eval '\\' = { text with prevState := .sentence, state := .escape } := by
  simp [eval, state, evalSentence, backslash_ordinary]

theorem eval_word_backslash {text : SplitText} (state : text.state = .word) :
    text.eval '\\' = { text with prevState := .word, state := .escape } := by
  simp [eval, state, evalWord, backslash_ordinary]

theorem eval_escape (text : SplitText) {done : List Chars} {entry : Chars} (c : Char)
    (state : text.state = .escape) (last : text.splitResult = done ++ [entry]) :
    text.eval c = { text with
      state := text.prevState
      splitResult := done ++ [entry ++ if isEscaped c then [c] else ['\\', c]] } := by
  simp [eval, state, evalEscape, appendBack, last]

theorem reads_space {c : Char} {rest : Chars} (ih : ∀ input : Chars,
    input.length ≤ rest.length → Reads input) (text : SplitText) (state : text.state = .space) :
    ((c :: rest).foldl eval text).splitResult = text.splitResult ++ entriesFrom (c :: rest) := by
  rw [List.foldl_cons]
  by_cases blank : isBlank c = true
  · have stays : text.eval c = text := by simp [eval, state, evalSpace, blank]
    rw [stays, (ih rest (Nat.le_refl _)).space text state, entriesFrom_blank blank]
  simp only [Bool.not_eq_true] at blank
  by_cases quote : isQuote c = true
  · have opens : text.eval c = text.newSentence c := by simp [eval, state, evalSpace, blank, quote]
    rw [opens, (ih rest (Nat.le_refl _)).sentence (text.newSentence c) text.splitResult [] c quote
      rfl rfl rfl, entriesFrom_quote quote, List.nil_append]
  simp only [Bool.not_eq_true] at quote
  have goes : endsWord c = false := by simp [endsWord, blank, quote]
  rw [entriesFrom_word goes]
  by_cases backslash : c = '\\'
  · have opens : text.eval c = { text with
        prevState := .word, state := .escape, splitResult := text.splitResult ++ [[]] } := by
      simp [eval, state, evalSpace, backslash, backslash_ordinary]
    rw [opens, backslash]
    cases rest with
    | nil => simp [readEntry, entriesFrom]
    | cons d rest =>
        rw [List.foldl_cons, eval_escape _ d rfl rfl]
        have read := (ih rest (by simp)).word { text with
          prevState := .word
          state := .word
          splitResult := text.splitResult ++ [[] ++ if isEscaped d then [d] else ['\\', d]] }
          text.splitResult _ rfl rfl
        rw [read, readEntry]
        rfl
  · have opens : text.eval c = { text with
        state := .word, splitResult := text.splitResult ++ [[c]] } := by
      simp [eval, state, evalSpace, blank, quote, backslash]
    rw [opens, (ih rest (Nat.le_refl _)).word _ text.splitResult [c] rfl rfl,
      readEntry_char backslash goes]
    rfl

theorem reads_word {c : Char} {rest : Chars} (ih : ∀ input : Chars,
    input.length ≤ rest.length → Reads input) (text : SplitText) (done : List Chars)
    (entry : Chars) (state : text.state = .word) (last : text.splitResult = done ++ [entry]) :
    ((c :: rest).foldl eval text).splitResult =
      done ++ (entry ++ (readEntry endsWord (c :: rest)).1) ::
        entriesFrom (readEntry endsWord (c :: rest)).2 := by
  by_cases backslash : c = '\\'
  · subst c
    rw [List.foldl_cons, eval_word_backslash state]
    cases rest with
    | nil => simp [readEntry, entriesFrom, last]
    | cons d rest =>
        rw [List.foldl_cons,
          eval_escape { text with prevState := .word, state := .escape } d rfl last,
          (ih rest (by simp)).word _ done _ rfl rfl, readEntry]
        simp
  rw [List.foldl_cons]
  by_cases blank : isBlank c = true
  · have ends : text.eval c = { text with state := .space } := by
      simp [eval, state, evalWord, blank]
    rw [ends, (ih rest (Nat.le_refl _)).space _ rfl,
      readEntry_stop backslash (by simp [endsWord, blank]), entriesFrom_blank blank]
    simp [last]
  simp only [Bool.not_eq_true] at blank
  by_cases quote : isQuote c = true
  · have opens : text.eval c = text.newSentence c := by simp [eval, state, evalWord, blank, quote]
    rw [opens, (ih rest (Nat.le_refl _)).sentence (text.newSentence c) text.splitResult [] c quote
      rfl rfl rfl, readEntry_stop backslash (by simp [endsWord, quote]), entriesFrom_quote quote]
    simp [last]
  simp only [Bool.not_eq_true] at quote
  have goes : endsWord c = false := by simp [endsWord, blank, quote]
  have adds : text.eval c = { text with splitResult := done ++ [entry ++ [c]] } := by
    simp [eval, state, evalWord, blank, quote, backslash, appendBack, last]
  rw [adds, (ih rest (Nat.le_refl _)).word { text with splitResult := done ++ [entry ++ [c]] } done
    (entry ++ [c]) state rfl, readEntry_char backslash goes]
  simp

theorem reads_sentence {c : Char} {rest : Chars} (ih : ∀ input : Chars,
    input.length ≤ rest.length → Reads input) (text : SplitText) (done : List Chars)
    (entry : Chars) (q : Char) (quote : isQuote q = true) (state : text.state = .sentence)
    (type : text.sentenceType = sentenceTypeOf q) (last : text.splitResult = done ++ [entry]) :
    ((c :: rest).foldl eval text).splitResult =
      done ++ (entry ++ (readEntry (· = q) (c :: rest)).1) ::
        entriesFrom ((readEntry (· = q) (c :: rest)).2.drop 1) := by
  by_cases backslash : c = '\\'
  · subst c
    rw [List.foldl_cons, eval_sentence_backslash state]
    cases rest with
    | nil => simp [readEntry, entriesFrom, last]
    | cons d rest =>
        have read := (ih rest (by simp)).sentence { text with
          prevState := .sentence
          state := .sentence
          splitResult := done ++ [entry ++ if isEscaped d then [d] else ['\\', d]] }
          done _ q quote rfl type rfl
        rw [List.foldl_cons,
          eval_escape { text with prevState := .sentence, state := .escape } d rfl last, read,
          readEntry]
        simp
  rw [List.foldl_cons]
  by_cases ends : c = q
  · subst c
    have closes : text.eval q = { text with state := .space } := by
      simp [eval, state, evalSentence, quote, type]
    rw [closes, (ih rest (Nat.le_refl _)).space _ rfl, readEntry_stop backslash (by simp)]
    simp [last]
  · have other : ¬(isQuote c = true ∧ sentenceTypeOf c = text.sentenceType) :=
      fun both => ends (sentenceTypeOf_inj both.1 quote (both.2.trans type))
    have adds : text.eval c = { text with splitResult := done ++ [entry ++ [c]] } := by
      by_cases inside : isQuote c = true
      · have apart : sentenceTypeOf c ≠ text.sentenceType := fun same => other ⟨inside, same⟩
        simp [eval, state, evalSentence, inside, apart, appendBack, last]
      · simp [eval, state, evalSentence, inside, backslash, appendBack, last]
    rw [adds, (ih rest (Nat.le_refl _)).sentence { text with splitResult := done ++ [entry ++ [c]] }
      done (entry ++ [c]) q quote state type rfl, readEntry_char backslash (by simp [ends])]
    simp

theorem reads (input : Chars) : Reads input := by
  induction size : input.length using Nat.strongRecOn generalizing input with
  | ind size ih =>
      cases input with
      | nil => exact reads_nil
      | cons c rest =>
          have shorter (other : Chars) (short : other.length ≤ rest.length) : Reads other :=
            ih other.length (by simp at size; omega) other rfl
          exact ⟨reads_space shorter, reads_word shorter, reads_sentence shorter⟩

theorem splitInto_eq (input : Chars) :
    splitInto input = (entriesFrom input).filter fun entry => !entry.isEmpty := by
  rw [splitInto, (reads input).space reset rfl]
  rfl

end SplitText

end AutoDrop
