import AutoDrop.CliCommands
import AutoDrop.CliImport

/-!
Lua code on its way through a saved line. `replaceNewlinesAndQuotes` marks newlines and
escapes double quotes; the splitter takes the escapes back, and `input_action` the marks.
-/

namespace AutoDrop

open SplitText

/-- The first loop of `replaceNewlinesAndQuotes`. -/
def marked (code : Chars) : Chars :=
  code.flatMap fun c => if c = '\n' then ['<', '>'] else [c]

/-- The second loop of `replaceNewlinesAndQuotes`. -/
def quoted (text : Chars) : Chars :=
  text.flatMap fun c => if c = '"' then ['\\', '"'] else [c]

theorem quoted_quote (rest : Chars) : quoted ('"' :: rest) = '\\' :: '"' :: quoted rest := rfl

theorem quoted_cons {c : Char} (unquote : c ≠ '"') (rest : Chars) :
    quoted (c :: rest) = c :: quoted rest := by
  simp [quoted, unquote]

theorem marked_newline (rest : Chars) : marked ('\n' :: rest) = '<' :: '>' :: marked rest := rfl

theorem marked_cons {c : Char} (inline : c ≠ '\n') (rest : Chars) :
    marked (c :: rest) = c :: marked rest := by
  simp [marked, inline]

theorem replaceNewlinesAndQuotes_eq (code : Chars) :
    replaceNewlinesAndQuotes code = quoted (marked code) := by
  induction code with
  | nil => rfl
  | cons c rest ih =>
      have split : replaceNewlinesAndQuotes (c :: rest) =
          (if c = '\n' then ['<', '>'] else if c = '"' then ['\\', '"'] else [c]) ++
            replaceNewlinesAndQuotes rest := rfl
      rw [split, ih]
      by_cases newline : c = '\n'
      · rw [if_pos newline, newline, marked_newline, quoted_cons (by simp), quoted_cons (by simp)]
        rfl
      · rw [if_neg newline, marked_cons newline]
        by_cases quote : c = '"'
        · rw [if_pos quote, quote, quoted_quote]
          rfl
        · rw [if_neg quote, quoted_cons quote]
          rfl

/-- Every backslash of the text stands directly before a character that is neither a quote
nor a backslash. -/
def BackslashesStay (text : Chars) : Prop := keeps (fun _ => false) text = true

instance (text : Chars) : Decidable (BackslashesStay text) := inferInstanceAs (Decidable (_ = _))

theorem quoted_escape {c : Char} (kept : isEscaped c = false) (rest : Chars) :
    quoted ('\\' :: c :: rest) = '\\' :: c :: quoted rest := by
  have unquote : c ≠ '"' := by
    rintro rfl
    simp [isEscaped] at kept
  rw [quoted_cons (by simp), quoted_cons unquote]

theorem readEntry_quoted {text : Chars} (stay : BackslashesStay text) (tail : Chars) :
    readEntry (· = '"') (quoted text ++ '"' :: tail) = (text, '"' :: tail) := by
  unfold BackslashesStay at stay
  induction text using entry_cases (fun _ => false) with
  | nil => exact readEntry_stop (by simp) rfl tail
  | lone => simp [keeps] at stay
  | escaped c rest literal ih => simp [keeps_escaped literal] at stay
  | kept c rest literal ih =>
      rw [keeps_kept literal] at stay
      rw [quoted_escape literal, List.cons_append, List.cons_append,
        readEntry_kept _ literal, ih stay]
  | stops c rest plain never => cases never
  | char c rest plain goes ih =>
      rw [keeps_cons plain] at stay
      have read := ih (by simpa using stay)
      by_cases quote : c = '"'
      · rw [quote, quoted_quote, List.cons_append, List.cons_append,
          readEntry_escaped _ (by rfl), read]
      · rw [quoted_cons quote, List.cons_append,
          readEntry_char plain (by simpa using quote), read]

/-- A text that is read back, even with lost backslashes in front, has lost none. -/
theorem backslashesStay_of_readEntry {text tail : Chars} {count : Nat}
    (read : (readEntry (· = '"') (quoted text ++ '"' :: tail)).1 =
      List.replicate count '\\' ++ text) :
    count = 0 ∧ BackslashesStay text := by
  induction text using entry_cases (fun _ => false) generalizing count with
  | nil =>
      rw [show quoted [] = [] from rfl, List.nil_append, readEntry_stop (by simp) (by simp),
        List.append_nil] at read
      exact ⟨List.replicate_eq_nil_iff _ |>.mp read.symm, rfl⟩
  | lone =>
      rw [show quoted ['\\'] = ['\\'] from rfl, List.cons_append, List.nil_append,
        readEntry_escaped _ (by rfl), replicate_append_backslash] at read
      exact absurd (List.cons.inj read).1 (by simp)
  | escaped c rest literal ih =>
      rw [replicate_append_backslash] at read
      by_cases backslash : c = '\\'
      · -- the first backslash is lost, and the reader lags behind from here on
        rw [backslash, quoted_cons (by simp), quoted_cons (by simp), List.cons_append,
          List.cons_append, readEntry_escaped _ (by rfl), replicate_append_backslash,
          ← List.cons_append, ← List.replicate_succ] at read
        exact absurd (ih (List.cons.inj read).2).1 (by simp)
      by_cases quote : c = '"'
      · rw [quote, quoted_cons (by simp), quoted_quote, List.cons_append, List.cons_append,
          readEntry_escaped _ (by rfl), List.cons_append,
          readEntry_stop (by simp) (by simp)] at read
        exact absurd (congrArg List.length read) (by simp)
      · rw [quoted_cons (by simp), quoted_cons quote, List.cons_append, List.cons_append,
          readEntry_escaped _ literal] at read
        exact absurd (List.cons.inj read).1 backslash
  | kept c rest literal ih =>
      rw [quoted_escape literal, List.cons_append, List.cons_append, readEntry_kept _ literal,
        replicate_append_backslash] at read
      obtain ⟨rfl, later⟩ := not_lagging (ne_backslash literal) (List.cons.inj read).2
      rw [BackslashesStay, keeps_kept literal]
      exact ⟨rfl, (ih later).2⟩
  | stops c rest plain never => cases never
  | char c rest plain goes ih =>
      have same : c :: (readEntry (· = '"') (quoted rest ++ '"' :: tail)).1 =
          List.replicate count '\\' ++ c :: rest := by
        by_cases quote : c = '"'
        · rw [quote, quoted_quote, List.cons_append, List.cons_append,
            readEntry_escaped _ (by rfl)] at read
          rw [quote]
          exact read
        · rwa [quoted_cons quote, List.cons_append,
            readEntry_char plain (by simpa using quote)] at read
      obtain ⟨rfl, later⟩ := not_lagging plain same
      refine ⟨rfl, ?_⟩
      rw [BackslashesStay, keeps_cons plain]
      simp only [Bool.not_false, Bool.true_and]
      exact (ih later).2

theorem restoreNewlines_cons {c : Char} {rest : Chars} (apart : ¬['<', '>'] <+: c :: rest) :
    restoreNewlines (c :: rest) = c :: restoreNewlines rest := by
  rw [restoreNewlines]
  rintro rest rfl rfl
  exact apart ⟨rest, rfl⟩

theorem prefix_of_marked {c : Char} {rest : Chars} (inline : c ≠ '\n')
    (mark : ['<', '>'] <+: c :: marked rest) : ['<', '>'] <+: c :: rest := by
  obtain ⟨rfl, later⟩ := List.cons_prefix_cons.mp mark
  cases rest with
  | nil => simp [marked] at later
  | cons d rest =>
      by_cases newline : d = '\n'
      · rw [newline, marked_newline] at later
        exact absurd (List.cons_prefix_cons.mp later).1 (by simp)
      · rw [marked_cons newline] at later
        obtain ⟨rfl, _⟩ := List.cons_prefix_cons.mp later
        exact ⟨rest, rfl⟩

theorem restoreNewlines_marked_iff (code : Chars) :
    restoreNewlines (marked code) = code ↔ ¬['<', '>'] <:+: code := by
  induction code with
  | nil => exact iff_of_true rfl (by simp)
  | cons c rest ih =>
      rw [List.infix_cons_iff, not_or, ← ih]
      by_cases newline : c = '\n'
      · have apart : ¬['<', '>'] <+: c :: rest := by
          rintro ⟨_, same⟩
          rw [newline] at same
          exact absurd (List.cons.inj same).1 (by simp)
        rw [and_iff_right apart, newline, marked_newline, restoreNewlines]
        exact ⟨fun same => (List.cons.inj same).2, congrArg _⟩
      · rw [marked_cons newline]
        by_cases pair : ['<', '>'] <+: c :: rest
        · refine iff_of_false ?_ (fun both => both.1 pair)
          obtain ⟨behind, same⟩ := pair
          obtain ⟨rfl, rfl⟩ := List.cons.inj same
          intro restored
          exact absurd (List.cons.inj restored).1 (by simp)
        · rw [and_iff_right pair,
            restoreNewlines_cons fun mark => pair (prefix_of_marked newline mark)]
          exact ⟨fun same => (List.cons.inj same).2, congrArg _⟩

theorem marked_restoreNewlines {text : Chars} (inline : '\n' ∉ text) :
    marked (restoreNewlines text) = text := by
  fun_induction restoreNewlines text with
  | case1 rest ih =>
      rw [marked_newline, ih (by simpa using inline)]
  | case2 c rest _ ih =>
      simp only [List.mem_cons, not_or] at inline
      rw [marked_cons (Ne.symm inline.1), ih inline.2]
  | case3 => rfl

theorem backslashesStay_marked_iff (code : Chars) :
    BackslashesStay (marked code) ↔ BackslashesStay code := by
  unfold BackslashesStay
  induction code using entry_cases (fun _ => false) with
  | nil => exact Iff.rfl
  | lone => exact Iff.rfl
  | escaped c rest literal ih =>
      have inline : c ≠ '\n' := by
        rintro rfl
        simp [isEscaped] at literal
      rw [marked_cons (by simp), marked_cons inline, keeps_escaped literal, keeps_escaped literal]
  | kept c rest literal ih =>
      rw [marked_cons (by simp), keeps_kept literal]
      by_cases newline : c = '\n'
      · rw [newline, marked_newline, keeps_kept (by rfl), keeps_cons (by simp)]
        simpa using ih
      · rw [marked_cons newline, keeps_kept literal]
        exact ih
  | stops c rest plain never => cases never
  | char c rest plain goes ih =>
      rw [keeps_cons plain]
      by_cases newline : c = '\n'
      · rw [newline, marked_newline, keeps_cons (by simp), keeps_cons (by simp)]
        simpa using ih
      · rw [marked_cons newline, keeps_cons plain]
        simpa using ih

theorem readEntry_quoted_ne_nil {text : Chars} (nonempty : text ≠ []) (tail : Chars) :
    (readEntry (· = '"') (quoted text ++ '"' :: tail)).1 ≠ [] := by
  obtain ⟨c, rest, rfl⟩ := List.exists_cons_of_ne_nil nonempty
  by_cases quote : c = '"'
  · rw [quote, quoted_quote, List.cons_append, List.cons_append, readEntry_escaped _ (by rfl)]
    exact List.cons_ne_nil _ _
  · rw [quoted_cons quote, List.cons_append]
    by_cases backslash : c = '\\'
    · obtain ⟨d, more, next⟩ : ∃ d more, quoted rest ++ '"' :: tail = d :: more :=
        List.exists_cons_of_ne_nil (by simp)
      rw [backslash, next, readEntry]
      split
      · exact List.cons_ne_nil _ _
      · exact List.cons_ne_nil _ _
    · rw [readEntry_char backslash (by simpa using quote)]
      exact List.cons_ne_nil _ _

/-! The line that `make_bdr` prints for a stored code. -/

def inputActionLine (name : Chars) (type : ActionType) (code : Chars) : Chars :=
  "input_action".toList ++ (printWords [name, type.word] ++
    ' ' :: '"' :: (replaceNewlinesAndQuotes code ++ ['"']))

theorem inputActionLine_printed {state : StateNode} {type : ActionType} {code : Chars}
    (stored : state.code type = some code) (nonempty : code ≠ []) :
    ∃ line ∈ CliConfig.stateLines state,
      line.1.toList ++ line.2 = inputActionLine state.name type code := by
  refine ⟨("input_action", printWords [state.name, type.word] ++ ' ' :: '"' ::
    (replaceNewlinesAndQuotes code ++ ['"'])), ?_, rfl⟩
  refine List.mem_cons_of_mem _ (List.mem_flatMap.mpr ⟨type, by cases type <;> decide, ?_⟩)
  simp [stored, nonempty]

/-- One of the two commands has just stored the code. -/
def Stores (env : CliEnv) (config : CliConfig) (name : Chars) (type : ActionType)
    (code : Chars) : Prop :=
  ∃ written : CliConfig, (config.editAction env [name, type.word] = .ok written ∨
      ∃ sent, config.inputAction env [name, type.word, sent] = .ok written) ∧
    (written.getState name).bind (fun state => state.code type) = some code

/-- Split again, the line gives back the command, the state, the action type and, behind
the replacement of `input_action`, the code. -/
def CodeSurvives (name : Chars) (type : ActionType) (code : Chars) : Prop :=
  ∃ sent, splitInto (inputActionLine name type code) =
      ["input_action".toList, name, type.word, sent] ∧ restoreNewlines sent = code

theorem splitInto_inputActionLine {name : Chars} (plain : Plain name) (type : ActionType)
    (code : Chars) : splitInto (inputActionLine name type code) =
      ["input_action".toList, name, type.word] ++
        splitInto ('"' :: (quoted (marked code) ++ ['"'])) := by
  have word : Plain type.word := by cases type <;> decide
  have words : ∀ word ∈ [name, type.word], Plain word := by
    simp [plain, word]
  have spaced : Spaced (' ' :: '"' :: (replaceNewlinesAndQuotes code ++ ['"'])) := .inr ⟨_, rfl⟩
  have command : Plain "input_action".toList := by decide
  refine (splitInto_plain command (spaced_printWords spaced).ends).trans ?_
  rw [splitInto_printWords words spaced, splitInto_blank (by decide), replaceNewlinesAndQuotes_eq]
  simp only [List.cons_append, List.nil_append]

theorem splitInto_quoted {text : Chars} (nonempty : text ≠ []) (stay : BackslashesStay text) :
    splitInto ('"' :: (quoted text ++ ['"'])) = [text] := by
  rw [splitInto_quote rfl, readEntry_quoted stay [], consEntry, if_neg (by simpa using nonempty)]
  rfl

theorem backslashesStay_of_splitInto {text : Chars}
    (split : splitInto ('"' :: (quoted text ++ ['"'])) = [text]) : BackslashesStay text := by
  rcases consEntry_eq_cons ((splitInto_quote rfl).symm.trans split) with
    ⟨empty, behind⟩ | ⟨own, _, _⟩
  · by_cases none : text = []
    · rw [none]
      rfl
    · exact absurd empty (readEntry_quoted_ne_nil none [])
  · have lagged : (readEntry (· = '"') (quoted text ++ '"' :: [])).1 =
        List.replicate 0 '\\' ++ text := own
    exact (backslashesStay_of_readEntry lagged).2

theorem inline_of_splitInto {code sent : Chars}
    (split : splitInto ('"' :: (quoted (marked code) ++ ['"'])) = [sent]) : '\n' ∉ sent := by
  intro newline
  have listed : sent ∈ splitInto ('"' :: (quoted (marked code) ++ ['"'])) := by simp [split]
  rw [splitInto_eq, List.mem_filter] at listed
  have member := mem_of_mem_entriesFrom _ listed.1 newline
  rw [← replaceNewlinesAndQuotes_eq] at member
  simp [not_mem_replace code] at member

/-- What is sent is the marked code, and the marks give the code back. -/
theorem sent_of_survives {name : Chars} (plain : Plain name) {type : ActionType} {code : Chars}
    (survives : CodeSurvives name type code) :
    splitInto ('"' :: (quoted (marked code) ++ ['"'])) = [marked code] ∧
      restoreNewlines (marked code) = code := by
  obtain ⟨sent, split, restored⟩ := survives
  have same : splitInto ('"' :: (quoted (marked code) ++ ['"'])) = [sent] := by
    rw [splitInto_inputActionLine plain type code] at split
    exact List.append_cancel_left split
  have own : marked code = sent := by
    rw [← restored, marked_restoreNewlines (inline_of_splitInto same)]
  subst own
  exact ⟨same, restored⟩

/-- A stored code comes back from its saved line exactly if it is not empty, has no `<>`, and
has every backslash directly before a character that is neither a quote nor a backslash. -/
theorem codeSurvives_iff (name : Chars) (plain : Plain name) (type : ActionType) (code : Chars) :
    CodeSurvives name type code ↔
      code ≠ [] ∧ ¬['<', '>'] <:+: code ∧ BackslashesStay code := by
  constructor
  · intro survives
    obtain ⟨same, restored⟩ := sent_of_survives plain survives
    refine ⟨?_, (restoreNewlines_marked_iff code).mp restored,
      (backslashesStay_marked_iff code).mp (backslashesStay_of_splitInto same)⟩
    rintro rfl
    exact absurd same (by decide)
  · rintro ⟨nonempty, unmarked, stay⟩
    have restored := (restoreNewlines_marked_iff code).mpr unmarked
    have filled : marked code ≠ [] := by
      intro empty
      rw [empty] at restored
      exact nonempty restored.symm
    refine ⟨marked code, ?_, restored⟩
    rw [splitInto_inputActionLine plain type code,
      splitInto_quoted filled ((backslashesStay_marked_iff code).mpr stay)]
    rfl

theorem codeSurvives_iff_twoLines :
    CodeSurvives ['w'] .enter ['f', '"', '\\', 't', '"', '\n', 'g'] :=
  (codeSurvives_iff ['w'] (by decide) .enter ['f', '"', '\\', 't', '"', '\n', 'g']).mpr
    ⟨by decide, by decide, by decide⟩

/-- The editor leaves `s='<>'`, which the line gives back with a newline in it. -/
theorem codeSurvives_fails :
    ¬∀ env config name type code, Plain name → Stores env config name type code →
      CodeSurvives name type code := by
  intro all
  have stored : Stores ⟨[], fun _ => [], fun _ _ => ['s', '=', '\'', '<', '>', '\'']⟩
      { CliConfig.cleared with states := [makeNewState ['w']] } ['w'] .enter
      ['s', '=', '\'', '<', '>', '\''] :=
    ⟨_, .inl rfl, rfl⟩
  have plain : Plain ['w'] := by decide
  have survives := all _ _ _ _ _ plain stored
  have unmarked := (restoreNewlines_marked_iff _).mp (sent_of_survives plain survives).2
  exact unmarked (by decide)

end AutoDrop
