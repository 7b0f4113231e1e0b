import AutoDrop.SimpleIni

/-!
A file of settings read line by line, and that the parser of SimpleIni, which knows no lines,
reads the same from it. A header without its bracket loses the settings behind it, up to the next
header. A line with nothing but a bracket is left out: the parser takes the name from a later line.
-/

namespace AutoDrop

namespace SimpleIni

inductive IniLine
  | ignored
  | bare
  | broken
  | header (name : Chars)
  | setting (key value : Chars)
deriving DecidableEq

def lineOf (line : Chars) : IniLine :=
  match line.dropWhile isSpace with
  | [] => .ignored
  | c :: text =>
      if isComment c then .ignored
      else if c = '[' then
        let inside := text.dropWhile isSpace
        if inside = [] then .bare
        else if ']' ∈ inside then .header (trimRight (inside.takeWhile (· ≠ ']')))
        else .broken
      else if c = '=' then .ignored
      else
        match text.dropWhile (· ≠ '=') with
        | [] => .ignored
        | _ :: value =>
            .setting (trimRight (c :: text.takeWhile (· ≠ '=')))
              (trimRight (value.dropWhile isSpace))

def lines : Chars → List Chars
  | [] => [[]]
  | c :: rest => if isNewLineChar c then [] :: lines rest else (lines rest).modifyHead (c :: ·)

def kinds (data : Chars) : List IniLine := ((lines data).map lineOf).filter (· ≠ .ignored)

structure IniSetting where
  header : Option Chars
  key : Chars
  value : Chars

/-- The settings of the lines; those behind a broken header belong to no section. -/
def settings : Option Chars → List IniLine → List IniSetting
  | _, [] => []
  | _, .header name :: rest => settings (some name) rest
  | _, .broken :: rest => settings none rest
  | current, .setting key value :: rest => ⟨current, key, value⟩ :: settings current rest
  | current, .ignored :: rest | current, .bare :: rest => settings current rest

def IniSetting.names (setting : IniSetting) (name key : Chars) : Bool :=
  setting.header.any (sameName · name) && sameName setting.key key

/-- The last one counts. -/
def lastValue (all : List IniSetting) (name key : Chars) : Option Chars :=
  ((all.filter (·.names name key)).getLast?).map IniSetting.value

/-! Lines and the text. -/

theorem lines_eq (data : Chars) :
    lines data = lineText data ::
      match lineEnd data with
      | [] => []
      | _ :: rest => lines rest := by
  induction data with
  | nil => rfl
  | cons c rest ih =>
    rw [lines]
    split
    · next newLine => simp [lineText, lineEnd, newLine]
    · next inLine =>
      have inLine : isNewLineChar c = false := by simpa using inLine
      rw [ih, lineEnd_cons inLine, List.modifyHead_cons]
      simp [lineText, inLine]

theorem lineEnd_cases (data : Chars) :
    lineEnd data = [] ∨ ∃ c rest, lineEnd data = c :: rest ∧ isNewLineChar c = true := by
  cases ended : lineEnd data with
  | nil => exact .inl rfl
  | cons c rest =>
    have first := List.head?_dropWhile_not (fun c => !isNewLineChar c) data
    rw [lineEnd] at ended
    rw [ended] at first
    exact .inr ⟨c, rest, rfl, by simpa using first⟩

theorem newLine_of_lineEnd {data rest : Chars} {c : Char} (ended : lineEnd data = c :: rest) :
    isNewLineChar c = true := by
  rcases lineEnd_cases data with none | ⟨d, more, begun, newLine⟩
  · cases none.symm.trans ended
  · cases begun.symm.trans ended
    exact newLine

theorem kinds_newLine {c : Char} (newLine : isNewLineChar c = true) (rest : Chars) :
    kinds (c :: rest) = kinds rest := by
  rw [kinds, lines, if_pos newLine]
  rfl

theorem kinds_line (data : Chars) :
    kinds data = [lineOf (lineText data)].filter (· ≠ .ignored) ++ kinds (lineEnd data) := by
  have behind : (match lineEnd data with
      | [] => []
      | _ :: rest => kinds rest) = kinds (lineEnd data) := by
    rcases lineEnd_cases data with none | ⟨c, rest, ended, newLine⟩
    · rw [none]
      rfl
    · rw [ended, kinds_newLine newLine]
  rw [← behind, kinds, lines_eq, List.map_cons, List.filter_cons]
  cases lineEnd data with
  | nil => split <;> simp_all
  | cons c rest => split <;> simp_all [kinds]

theorem lineOf_space {c : Char} (space : isSpace c = true) (text : Chars) :
    lineOf (c :: text) = lineOf text := by
  rw [lineOf, lineOf, List.dropWhile_cons_of_pos space]

theorem lineText_cons {c : Char} (inLine : isNewLineChar c = false) (rest : Chars) :
    lineText (c :: rest) = c :: lineText rest :=
  List.takeWhile_cons_of_pos (by simp [inLine])

theorem kinds_space {c : Char} (space : isSpace c = true) (rest : Chars) :
    kinds (c :: rest) = kinds rest := by
  cases newLine : isNewLineChar c with
  | true => exact kinds_newLine newLine rest
  | false =>
    rw [kinds_line (c :: rest), lineEnd_cons newLine, lineText_cons newLine, lineOf_space space,
      ← kinds_line]

theorem kinds_dropSpace (data : Chars) : kinds (data.dropWhile isSpace) = kinds data := by
  induction data with
  | nil => rfl
  | cons c rest ih =>
    rw [List.dropWhile_cons]
    split
    · next space => rw [ih, kinds_space space]
    · rfl

theorem skipNewLine_cases {c : Char} (rest : Chars) :
    skipNewLine (c :: rest) = rest ∨
      ∃ more, rest = '\n' :: more ∧ skipNewLine (c :: rest) = more := by
  by_cases both : ∃ more, c = '\r' ∧ rest = '\n' :: more
  · obtain ⟨more, rfl, rfl⟩ := both
    exact .inr ⟨more, rfl, rfl⟩
  · refine .inl ?_
    rw [skipNewLine]
    intro more carriage line
    exact both ⟨more, carriage, line⟩

theorem kinds_behindLine (data : Chars) : kinds (behindLine data) = kinds (lineEnd data) := by
  rw [behindLine]
  rcases lineEnd_cases data with none | ⟨c, rest, ended, newLine⟩
  · rw [none]
    rfl
  · rw [ended, kinds_newLine newLine]
    rcases skipNewLine_cases rest with one | ⟨more, rfl, two⟩
    · rw [one]
    · rw [two, kinds_newLine rfl]

theorem kinds_comment {c : Char} (comment : isComment c = true) (rest : Chars) :
    kinds (c :: rest) = kinds (lineEnd (c :: rest)) := by
  have solid := not_space_of_comment comment
  have ignored : lineOf (lineText (c :: rest)) = .ignored := by
    rw [lineText_cons (not_newLine_of_space solid), lineOf,
      List.dropWhile_cons_of_neg (by simp [solid])]
    exact if_pos comment
  rw [kinds_line, ignored]
  rfl

theorem kinds_loadMultiLineText (allowBlankLines : Bool) (data : Chars) :
    kinds (loadMultiLineText allowBlankLines data).2 = kinds data := by
  fun_induction loadMultiLineText allowBlankLines data with
  | case1 | case3 => rfl
  | case2 data c rest start comment next ih =>
    rw [ih, kinds_behindLine, ← kinds_comment comment, ← start, commentStart]
    split
    · exact kinds_dropSpace data
    · rfl

theorem upTo_eq (stop : Char) (data : Chars) :
    upTo stop data = (lineText data).takeWhile (· ≠ stop) := by
  induction data with
  | nil => rfl
  | cons c rest ih =>
    rw [upTo, lineText] at ih ⊢
    by_cases newLine : isNewLineChar c = true
    · simp [newLine]
    · by_cases same : c = stop
      · subst same
        simp [newLine]
      · simpa [List.takeWhile_cons, newLine, same] using ih

theorem atStop_eq (stop : Char) (data : Chars) :
    atStop stop data = (lineText data).dropWhile (· ≠ stop) ++ lineEnd data := by
  induction data with
  | nil => rfl
  | cons c rest ih =>
    rw [atStop, lineText, lineEnd] at ih ⊢
    by_cases newLine : isNewLineChar c = true
    · simp [newLine]
    · by_cases same : c = stop
      · subst same
        simp [newLine]
      · simpa [List.takeWhile_cons, List.dropWhile_cons, newLine, same] using ih

/-- The line behind its leading space, where that ends in the line or at its end. -/
theorem lineText_dropWhile (skips : Char → Bool) (data : Chars)
    (blank : ∀ c, isNewLineChar c = false → skips c = isSpace c)
    (ends : (∀ c, isNewLineChar c = true → skips c = false) ∨
      (lineText data).dropWhile isSpace ≠ []) :
    lineText (data.dropWhile skips) = (lineText data).dropWhile isSpace ∧
      lineEnd (data.dropWhile skips) = lineEnd data := by
  induction data with
  | nil => exact ⟨rfl, rfl⟩
  | cons c rest ih =>
    by_cases newLine : isNewLineChar c = true
    · have none : lineText (c :: rest) = [] := by simp [lineText, newLine]
      rw [none] at ends ⊢
      have stops := (ends.resolve_right fun some => some rfl) c newLine
      rw [List.dropWhile_cons_of_neg (by simp [stops]), none]
      exact ⟨rfl, rfl⟩
    · have inLine : isNewLineChar c = false := by simpa using newLine
      rw [lineText_cons inLine] at ends ⊢
      rw [lineEnd_cons inLine]
      cases space : isSpace c with
      | true =>
        rw [List.dropWhile_cons_of_pos space] at ends ⊢
        rw [List.dropWhile_cons_of_pos (by rw [blank c inLine, space])]
        exact ih ends
      | false =>
        have solid : ¬isSpace c = true := by simp [space]
        rw [List.dropWhile_cons_of_neg solid,
          List.dropWhile_cons_of_neg (by rw [blank c inLine]; exact solid), lineText_cons inLine,
          lineEnd_cons inLine]
        exact ⟨rfl, rfl⟩

theorem behind_atStop {stop : Char} {data behind : Chars}
    (found : atStop stop data = stop :: behind) (inLine : isNewLineChar stop = false) :
    ∃ value, (lineText data).dropWhile (· ≠ stop) = stop :: value ∧ lineText behind = value ∧
      lineEnd behind = lineEnd data := by
  induction data with
  | nil => cases found
  | cons c rest ih =>
    by_cases same : c = stop
    · subst same
      obtain rfl : rest = behind := by
        rw [atStop, List.dropWhile_cons_of_neg (by simp)] at found
        exact (List.cons.inj found).2
      refine ⟨lineText rest, ?_, rfl, (lineEnd_cons inLine rest).symm⟩
      rw [lineText_cons inLine, List.dropWhile_cons_of_neg (by simp)]
    · by_cases newLine : isNewLineChar c = true
      · rw [atStop, List.dropWhile_cons_of_neg (by simp [newLine])] at found
        exact (same (List.cons.inj found).1).elim
      · have inner : isNewLineChar c = false := by simpa using newLine
        rw [atStop, List.dropWhile_cons_of_pos (by simp [same, inner])] at found
        rw [lineText_cons inner, lineEnd_cons inner, List.dropWhile_cons_of_pos (by simp [same])]
        exact ih found

theorem not_found_atStop {stop : Char} {data : Chars}
    (missing : ∀ behind, atStop stop data = stop :: behind → False) :
    (lineText data).dropWhile (· ≠ stop) = [] ∧ atStop stop data = lineEnd data := by
  have none : (lineText data).dropWhile (· ≠ stop) = [] := by
    cases left : (lineText data).dropWhile (· ≠ stop) with
    | nil => rfl
    | cons c value =>
      have first := List.head?_dropWhile_not (fun c => decide (c ≠ stop)) (lineText data)
      rw [left] at first
      obtain rfl : c = stop := by simpa using first
      exact (missing (value ++ lineEnd data) (by rw [atStop_eq, left]; rfl)).elim
  exact ⟨none, by rw [atStop_eq, none]; rfl⟩

/-! The parser. -/

theorem loadEntries_eq (pSection : IniSection) (data : Chars) :
    loadEntries pSection data =
      match step pSection data with
      | .done => []
      | .skip next rest => loadEntries next rest
      | .found name item rest => (name, item) :: loadEntries (.named name) rest := by
  rw [loadEntries]
  split
  · next empty =>
    subst empty
    rfl
  · split <;> simp_all

theorem loadEntries_dropSpace (pSection : IniSection) (data : Chars) :
    loadEntries pSection (data.dropWhile isSpace) = loadEntries pSection data := by
  have same : step pSection (data.dropWhile isSpace) = step pSection data := by
    rw [step, step, List.dropWhile_idempotent]
  rw [loadEntries_eq, same, ← loadEntries_eq]

theorem loadEntries_space (pSection : IniSection) {c : Char} (space : isSpace c = true)
    (rest : Chars) : loadEntries pSection (c :: rest) = loadEntries pSection rest := by
  rw [← loadEntries_dropSpace, List.dropWhile_cons_of_pos space, loadEntries_dropSpace]

theorem loadEntries_behindLine (pSection : IniSection) (data : Chars) :
    loadEntries pSection (behindLine data) = loadEntries pSection (lineEnd data) := by
  rw [behindLine]
  rcases lineEnd_cases data with none | ⟨c, rest, ended, newLine⟩
  · rw [none]
    rfl
  · rw [ended, loadEntries_space pSection (newLine_space newLine)]
    rcases skipNewLine_cases rest with one | ⟨more, rfl, two⟩
    · rw [one]
    · rw [two, loadEntries_space pSection rfl]

/-- A name that no single line holds. -/
def Lost (name : Chars) : Prop := ∃ c ∈ name, isNewLineChar c = true

def InSection (name : Chars) : Option Chars → Prop
  | some current => name = current
  | none => Lost name

/-- The section of the parser where the data is left, and that of the lines. -/
inductive Agrees (data : Chars) : IniSection → Option Chars → Prop
  | named {name : Chars} {current : Option Chars} (same : InSection name current) :
      Agrees data (.named name) current
  | unended {before : Chars} (lost : Lost before) : Agrees data (.unended (before ++ data)) none

structure SameSetting (entry : Chars × Chars × Chars) (setting : IniSetting) : Prop where
  header : InSection entry.1 setting.header
  key : entry.2.1 = setting.key
  value : entry.2.2 = setting.value

def assigned (entry : Chars × Option (Chars × Chars)) : Option (Chars × Chars × Chars) :=
  entry.2.map fun item => (entry.1, item)

variable {data rest : Chars} {pSection : IniSection} {current : Option Chars}

theorem Agrees.name (agrees : Agrees data pSection current) (text : Chars) :
    InSection (pSection.name data text) current := by
  cases agrees with
  | named same => exact same
  | @unended before lost =>
    obtain ⟨c, member, newLine⟩ := lost
    refine ⟨c, ?_, newLine⟩
    have front : (before ++ data).take ((before ++ data).length - data.length) = before := by
      rw [List.length_append, Nat.add_sub_cancel, List.take_left' rfl]
    rw [IniSection.name, front]
    exact List.mem_append_left text member

theorem Agrees.suffix {front : Chars} (agrees : Agrees (front ++ data) pSection current) :
    Agrees data pSection current := by
  cases agrees with
  | named same => exact .named same
  | @unended before lost =>
    obtain ⟨c, member, newLine⟩ := lost
    rw [← List.append_assoc]
    exact .unended ⟨c, List.mem_append_left front member, newLine⟩

theorem lineText_append_lineEnd (data : Chars) : lineText data ++ lineEnd data = data :=
  List.takeWhile_append_dropWhile

def Reads (pSection : IniSection) (data : Chars) (current : Option Chars) : Prop :=
  List.Forall₂ SameSetting ((loadEntries pSection data).filterMap assigned)
    (settings current (kinds data))

/-- Behind the end of a line nothing depends on how the parser got there. -/
theorem reads_lineEnd (whole : .bare ∉ kinds (lineEnd data))
    (behind : ∀ c rest, lineEnd data = c :: rest → .bare ∉ kinds rest →
      Reads pSection rest current) : Reads pSection (lineEnd data) current := by
  rcases lineEnd_cases data with none | ⟨c, rest, ended, newLine⟩
  · rw [Reads, none, loadEntries_eq]
    exact .nil
  · rw [ended, kinds_newLine newLine] at whole
    have later := behind c rest ended whole
    rwa [Reads, ended, loadEntries_space pSection (newLine_space newLine), kinds_newLine newLine]

theorem Reads.header {name : Chars} (line : lineOf (lineText data) = .header name)
    (read : loadEntries pSection data = (name, none) :: loadEntries (.named name) (lineEnd data))
    (behind : Reads (.named name) (lineEnd data) (some name)) : Reads pSection data current := by
  rw [Reads, read, kinds_line, line]
  exact behind

theorem Reads.broken (line : lineOf (lineText data) = .broken) {next : IniSection}
    (read : loadEntries pSection data = loadEntries next (lineEnd data))
    (behind : Reads next (lineEnd data) none) : Reads pSection data current := by
  rw [Reads, read, kinds_line, line]
  exact behind

theorem Reads.ignored (line : lineOf (lineText data) = .ignored)
    (read : loadEntries pSection data = loadEntries pSection (lineEnd data))
    (behind : Reads pSection (lineEnd data) current) : Reads pSection data current := by
  rw [Reads, read, kinds_line, line]
  exact behind

theorem Reads.setting {name key value : Chars} (line : lineOf (lineText data) = .setting key value)
    (read : loadEntries pSection data =
      (name, some (key, value)) :: loadEntries (.named name) (lineEnd data))
    (same : InSection name current)
    (behind : Reads (.named name) (lineEnd data) current) : Reads pSection data current := by
  rw [Reads, read, kinds_line, line]
  exact .cons ⟨same, rfl, rfl⟩ behind

theorem lineText_solid {c : Char} (solid : isSpace c = false) (rest : Chars) :
    (lineText (c :: rest)).dropWhile isSpace = c :: lineText rest := by
  rw [lineText_cons (not_newLine_of_space solid), List.dropWhile_cons_of_neg (by simp [solid])]

theorem reads_bracket (whole : .bare ∉ kinds ('[' :: rest))
    (later : ∀ next header, (∀ c more, lineEnd rest = c :: more → Agrees more next header) →
      Reads next (lineEnd rest) header) : Reads pSection ('[' :: rest) current := by
  have ended : lineEnd ('[' :: rest) = lineEnd rest := lineEnd_cons rfl rest
  have text : (lineText ('[' :: rest)).dropWhile isSpace = '[' :: lineText rest :=
    lineText_solid rfl rest
  have some : (lineText rest).dropWhile isSpace ≠ [] := by
    intro none
    have bare : lineOf (lineText ('[' :: rest)) = .bare := by
      simp [lineOf, text, isComment, none]
    rw [kinds_line, bare] at whole
    simp at whole
  obtain ⟨inside, behind⟩ := lineText_dropWhile isSpace rest (fun c _ => rfl) (.inr some)
  have pass : step pSection ('[' :: rest) = headerStep (rest.dropWhile isSpace) := rfl
  rw [headerStep] at pass
  split at pass
  · next more found =>
    obtain ⟨value, stop, -, same⟩ := behind_atStop found rfl
    rw [inside] at stop
    have bracket : ']' ∈ (lineText rest).dropWhile isSpace :=
      (List.dropWhile_suffix _).subset (stop ▸ List.mem_cons_self)
    have line : lineOf (lineText ('[' :: rest)) =
        .header (trimRight (upTo ']' (rest.dropWhile isSpace))) := by
      rw [upTo_eq, inside]
      simp [lineOf, text, isComment, some, bracket]
    refine .header line ?_ ?_
    · rw [loadEntries_eq, pass, same, behind, ended]
    · rw [ended]
      exact later _ _ fun _ _ _ => .named rfl
  · next missing =>
    obtain ⟨none, same⟩ := not_found_atStop missing
    rw [inside] at none
    have noBracket : ']' ∉ (lineText rest).dropWhile isSpace := fun member => by
      simpa using List.dropWhile_eq_nil_iff.mp none ']' member
    have line : lineOf (lineText ('[' :: rest)) = .broken := by
      simp [lineOf, text, isComment, some, noBracket]
    have read : loadEntries pSection ('[' :: rest) =
        loadEntries (.unended (rest.dropWhile isSpace)) (lineEnd ('[' :: rest)) := by
      rw [loadEntries_eq, pass, same, behind, ended]
    refine .broken line read ?_
    rw [ended]
    refine later _ _ fun c more begun => ?_
    have start : rest.dropWhile isSpace = ((lineText rest).dropWhile isSpace ++ [c]) ++ more := by
      rw [List.append_assoc, List.singleton_append, ← begun, ← behind, ← inside,
        lineText_append_lineEnd]
    rw [start]
    exact .unended ⟨c, by simp, newLine_of_lineEnd begun⟩

theorem reads_key {c : Char} (solid : isSpace c = false) (text : isComment c = false)
    (key : c ≠ '[') (agrees : Agrees (c :: rest) pSection current)
    (later : ∀ next header, (∀ c more, lineEnd rest = c :: more → Agrees more next header) →
      Reads next (lineEnd rest) header) : Reads pSection (c :: rest) current := by
  have inLine := not_newLine_of_space solid
  have ended : lineEnd (c :: rest) = lineEnd rest := lineEnd_cons inLine rest
  have line := lineText_solid solid rest
  have keeps : ∀ d more, lineEnd rest = d :: more → Agrees more pSection current := by
    intro d more begun
    have parts : c :: rest = (c :: lineText rest ++ [d]) ++ more := by
      rw [List.append_assoc, List.singleton_append, ← begun, List.cons_append,
        lineText_append_lineEnd]
    exact (parts ▸ agrees).suffix
  have pass : step pSection (c :: rest) = keyStep pSection (c :: rest) := by
    rw [step, List.dropWhile_cons_of_neg (by simp [solid])]
    simp only [text, key, if_false, Bool.false_eq_true]
  rw [keyStep] at pass
  dsimp only at pass
  split at pass
  · next behind found =>
    obtain ⟨value, stop, behindText, same⟩ := behind_atStop found rfl
    by_cases sign : c = '='
    · subst sign
      have ignored : lineOf (lineText ('=' :: rest)) = .ignored := by
        simp [lineOf, line, text]
      refine .ignored ignored ?_ (ended ▸ later _ _ keeps)
      rw [loadEntries_eq, pass, upTo_eq, lineText_cons rfl,
        List.takeWhile_cons_of_neg (by simp), if_pos rfl, same]
    · rw [lineText_cons inLine, List.dropWhile_cons_of_pos (by simp [sign])] at stop
      have name : upTo '=' (c :: rest) = c :: (lineText rest).takeWhile (· ≠ '=') := by
        rw [upTo_eq, lineText_cons inLine, List.takeWhile_cons_of_pos (by simp [sign])]
      obtain ⟨valueText, valueEnd⟩ := lineText_dropWhile
        (fun c => !isNewLineChar c && isSpace c) behind
        (fun d other => by simp [other]) (.inl fun d newLine => by simp [newLine])
      rw [behindText] at valueText
      have setting : lineOf (lineText (c :: rest)) =
          .setting (trimRight (c :: (lineText rest).takeWhile (· ≠ '=')))
            (trimRight (value.dropWhile isSpace)) := by
        rw [lineOf, line]
        simp only [text, key, sign, stop, if_false, Bool.false_eq_true]
      have inSection := agrees.name (trimRight (c :: (lineText rest).takeWhile (· ≠ '=')))
      refine .setting setting ?_ inSection (ended ▸ later _ _ fun _ _ _ => .named inSection)
      rw [loadEntries_eq, pass, name, if_neg (List.cons_ne_nil _ _)]
      dsimp only
      rw [loadEntries_behindLine, valueText, valueEnd, same]
  · next missing =>
    obtain ⟨none, same⟩ := not_found_atStop missing
    have sign : c ≠ '=' := by
      rintro rfl
      exact missing rest rfl
    rw [lineText_cons inLine, List.dropWhile_cons_of_pos (by simp [sign])] at none
    have ignored : lineOf (lineText (c :: rest)) = .ignored := by
      rw [lineOf, line]
      simp only [text, key, sign, none, if_false, Bool.false_eq_true]
    refine .ignored ignored ?_ (ended ▸ later _ _ keeps)
    rw [loadEntries_eq, pass, same]

/-- The parser, from wherever it is in the text, takes from it what its lines say. -/
theorem reads_lines (agrees : Agrees data pSection current) (whole : .bare ∉ kinds data) :
    Reads pSection data current := by
  induction length : data.length using Nat.strong_induction_on generalizing data pSection current
    with
  | _ size ih =>
    have shorter := length_dropSpace_le data
    rw [Reads, ← loadEntries_dropSpace, ← kinds_dropSpace, ← Reads]
    rw [← kinds_dropSpace] at whole
    replace agrees : Agrees (data.dropWhile isSpace) pSection current := by
      rw [← List.takeWhile_append_dropWhile (p := isSpace) (l := data)] at agrees
      exact agrees.suffix
    cases start : data.dropWhile isSpace with
    | nil =>
      rw [Reads, loadEntries_eq]
      exact .nil
    | cons c rest =>
      rw [start] at shorter whole agrees
      have solid := solid_of_dropSpace start
      have inLine := not_newLine_of_space solid
      have later (next : IniSection) (header : Option Chars)
          (begins : ∀ c more, lineEnd rest = c :: more → Agrees more next header) :
          Reads next (lineEnd rest) header := by
        have less := length_lineEnd_le rest
        have line := kinds_line (c :: rest)
        rw [lineEnd_cons inLine] at line
        refine reads_lineEnd (fun bare => whole (line ▸ List.mem_append_right _ bare)) ?_
        intro d more begun left
        rw [begun, List.length_cons] at less
        rw [List.length_cons] at shorter
        exact ih more.length (by omega) (begins d more begun) left rfl
      cases comment : isComment c with
      | true =>
        have pass : step pSection (c :: rest) =
            .skip (.named (pSection.name (c :: rest)
              (['\n'].intercalate (loadMultiLineText true (c :: rest)).1)))
              (loadMultiLineText true (c :: rest)).2 := by
          rw [step, List.dropWhile_cons_of_neg (by simp [solid])]
          exact if_pos comment
        have less := length_loadMultiLineText_lt true comment rest
        rw [← kinds_loadMultiLineText true] at whole
        have same := agrees.name (['\n'].intercalate (loadMultiLineText true (c :: rest)).1)
        have behind := ih _ (by omega) (.named same) whole rfl
        rw [Reads, kinds_loadMultiLineText] at behind
        rw [Reads, loadEntries_eq, pass]
        exact behind
      | false =>
        by_cases bracket : c = '['
        · subst bracket
          exact reads_bracket whole later
        · exact reads_key solid comment bracket agrees later

/-! The data. -/

section Data

variable {V : Type*} {name other : Chars}

theorem sameName_iff :
    sameName name other = true ↔ name.map Char.toLower = other.map Char.toLower :=
  decide_eq_true_iff

theorem lookup_congr (same : sameName name other = true) (data : List (Chars × V)) :
    lookup name data = lookup other data := by
  induction data with
  | nil => rfl
  | cons entry rest ih =>
    have lower := sameName_iff.mp same
    rw [lookup, lookup, ih, sameName, sameName, lower]

theorem lookup_insert (name other : Chars) (value : V) (data : List (Chars × V)) :
    lookup other (insert name value data) =
      if sameName name other then some value else lookup other data := by
  induction data with
  | nil => rfl
  | cons entry rest ih =>
    rw [insert]
    split
    · next same =>
      have lower := sameName_iff.mp same
      rw [lookup, lookup, sameName, sameName, lower]
      split <;> rfl
    · next different =>
      rw [lookup, lookup, ih]
      by_cases found : sameName entry.1 other = true
      · have apart : ¬sameName name other = true := by
          rw [sameName_iff] at found different ⊢
          exact fun same => different (found.trans same.symm)
        rw [if_pos found, if_neg apart, if_pos found]
      · rw [if_neg found, if_neg found]

theorem lookup_getD (name other : Chars) (data : IniData) (key : Chars)
    (same : sameName name other = true) :
    lookup key ((lookup name data).getD []) = getValue data other key := by
  rw [getValue, lookup_congr same]
  cases lookup other data <;> rfl

def Assigns (name key : Chars) (entry : Chars × Chars × Chars) : Bool :=
  sameName entry.1 name && sameName entry.2.1 key

theorem getValue_addEntry (data : IniData) (entry : Chars × Option (Chars × Chars))
    (name key : Chars) :
    getValue (addEntry data entry) name key =
      match assigned entry with
      | none => getValue data name key
      | some found =>
          if Assigns name key found then some found.2.2 else getValue data name key := by
  obtain ⟨inSection, item⟩ := entry
  cases item with
  | none =>
    rw [addEntry, getValue, lookup_insert]
    split
    · next same => exact lookup_getD inSection name data key same
    · rfl
  | some item =>
    rw [addEntry, getValue, lookup_insert]
    cases same : sameName inSection name with
    | false => simp [assigned, Assigns, same, getValue]
    | true =>
      rw [if_pos rfl, Option.bind_some, lookup_insert, lookup_getD inSection name data key same]
      simp [assigned, Assigns, same]

theorem getValue_foldl (entries : List (Chars × Option (Chars × Chars))) (name key : Chars) :
    getValue (entries.foldl addEntry []) name key =
      ((((entries.filterMap assigned).filter (Assigns name key)).map fun found => found.2.2)
        ).getLast? := by
  induction entries using List.reverseRecOn with
  | nil => rfl
  | append_singleton entries last ih =>
    rw [List.foldl_append, List.foldl_cons, List.foldl_nil, getValue_addEntry, ih,
      List.filterMap_append]
    cases item : assigned last with
    | none => simp [item]
    | some found =>
      by_cases assigns : Assigns name key found = true <;> simp [item, assigns]

theorem toLower_cases (c : Char) : c.toLower = c ∨ 97 ≤ c.toLower.toNat := by
  delta Char.toLower
  split
  · next upper =>
    refine .inr ?_
    have first : 65 ≤ c.toNat := upper.1
    have last : c.toNat ≤ 90 := upper.2
    have offset : 'a'.val - 'A'.val = 32 := by decide
    change 97 ≤ (c.val + ('a'.val - 'A'.val)).toNat
    rw [offset, UInt32.toNat_add]
    simp only [Char.toNat_val, UInt32.reduceToNat]
    omega
  · exact .inl rfl

theorem newLine_toLower (c : Char) : isNewLineChar c.toLower = isNewLineChar c := by
  rcases toLower_cases c with same | letter
  · rw [same]
  · by_cases own : isNewLineChar c = true
    · simp only [isNewLineChar, Bool.or_eq_true, decide_eq_true_eq] at own
      rcases own with rfl | rfl <;> rfl
    · have lower : isNewLineChar c.toLower = false := by
        rw [Bool.eq_false_iff]
        intro newLine
        simp only [isNewLineChar, Bool.or_eq_true, decide_eq_true_eq] at newLine
        rcases newLine with line | line
        all_goals
          rw [line] at letter
          revert letter
          decide
      rw [lower, Bool.eq_false_iff.mpr own]

theorem not_sameName_of_lost (lost : Lost name) (plain : ∀ c ∈ other, isNewLineChar c = false) :
    sameName name other = false := by
  rw [Bool.eq_false_iff]
  intro same
  obtain ⟨c, member, newLine⟩ := lost
  have lower : c.toLower ∈ other.map Char.toLower :=
    sameName_iff.mp same ▸ List.mem_map_of_mem member
  obtain ⟨d, listed, equal⟩ := List.mem_map.mp lower
  rw [← newLine_toLower, ← equal, newLine_toLower, plain d listed] at newLine
  cases newLine

theorem values_eq {entries : List (Chars × Chars × Chars)} {all : List IniSetting}
    (same : List.Forall₂ SameSetting entries all) (plain : ∀ c ∈ name, isNewLineChar c = false)
    (key : Chars) :
    (entries.filter (Assigns name key)).map (fun found => found.2.2) =
      (all.filter (·.names name key)).map IniSetting.value := by
  induction same with
  | nil => rfl
  | @cons entry setting entries all first _ ih =>
    have chosen : Assigns name key entry = setting.names name key := by
      obtain ⟨header, keys, -⟩ := first
      rw [Assigns, IniSetting.names, keys]
      cases place : setting.header with
      | none =>
        rw [place] at header
        rw [not_sameName_of_lost header plain]
        rfl
      | some current =>
        rw [place] at header
        rw [header]
        rfl
    rw [List.filter_cons, List.filter_cons, chosen]
    split
    · rw [List.map_cons, List.map_cons, ih, first.value]
    · exact ih

end Data

/-- What `get_config` answers is the last value that the lines of the file have for the key. -/
theorem config_of_lines {text name : Chars} (whole : .bare ∉ kinds (content text))
    (plain : name.any isNewLineChar = false) (key fallback : Chars) :
    getConfig (some text) name key fallback =
      (lastValue (settings (some []) (kinds (content text))) name key).getD fallback := by
  have read : Reads (.named []) (loadMultiLineText false (content text)).2 (some []) :=
    reads_lines (.named rfl) (by rwa [kinds_loadMultiLineText])
  have inLine : ∀ c ∈ name, isNewLineChar c = false := by simpa using plain
  rw [Reads, kinds_loadMultiLineText] at read
  rw [getConfig, Option.map_some, Option.getD_some, loadData, getValue_foldl, values_eq read inLine,
    lastValue, List.getLast?_map]

/-- The second value counts, and the third is lost. -/
theorem config_of_lines_lost :
    getConfig (some "#\r\n[a]\r\nE0 = 1\r\n\r\ne0=2 \r\n[b\r\n[a\r\nE0=3".toList) "A".toList
      "E0".toList "0.1".toList = "2".toList :=
  (config_of_lines (by decide) (by decide) "E0".toList "0.1".toList).trans (by decide)

end SimpleIni

end AutoDrop
