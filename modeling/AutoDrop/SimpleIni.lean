import AutoDrop.CliSplit
import Mathlib.Data.List.DropRight

/-!
`AD_INI_CONFIG`: how SimpleIni reads a file and answers for a key. The parser walks over the
text and puts a NUL behind each name that it points to. A section without its bracket points
into text that has no end yet: its name ends where the next NUL is put.
-/

namespace AutoDrop

namespace SimpleIni

def isSpace (c : Char) : Bool := c = ' ' || c = '\t' || c = '\r' || c = '\n'

def isComment (c : Char) : Bool := c = ';' || c = '#'

def isNewLineChar (c : Char) : Bool := c = '\n' || c = '\r'

def sameName (left right : Chars) : Bool := left.map Char.toLower = right.map Char.toLower

def skipNewLine : Chars → Chars
  | '\r' :: '\n' :: rest => rest
  | _ :: rest => rest
  | [] => []

/-- The text up to a character, in its line. -/
def upTo (stop : Char) (data : Chars) : Chars :=
  data.takeWhile fun c => c ≠ stop && !isNewLineChar c

def atStop (stop : Char) (data : Chars) : Chars :=
  data.dropWhile fun c => c ≠ stop && !isNewLineChar c

def lineText (data : Chars) : Chars := data.takeWhile fun c => !isNewLineChar c

def lineEnd (data : Chars) : Chars := data.dropWhile fun c => !isNewLineChar c

def trimRight (text : Chars) : Chars := text.rdropWhile isSpace

/-- `nNewLines`, over the space that the data begins with. -/
def newLines : Chars → Nat
  | '\r' :: '\n' :: rest => newLines rest + 1
  | c :: rest =>
      if isNewLineChar c then newLines rest + 1 else if isSpace c then newLines rest else 0
  | [] => 0

theorem length_lineEnd_le (data : Chars) : (lineEnd data).length ≤ data.length :=
  (List.dropWhile_suffix _).length_le

theorem length_atStop_le (stop : Char) (data : Chars) : (atStop stop data).length ≤ data.length :=
  (List.dropWhile_suffix _).length_le

theorem length_dropSpace_le (data : Chars) : (data.dropWhile isSpace).length ≤ data.length :=
  (List.dropWhile_suffix _).length_le

theorem length_skipNewLine_le (data : Chars) : (skipNewLine data).length ≤ data.length := by
  fun_cases skipNewLine data <;> simp
  omega

theorem newLine_space {c : Char} (newLine : isNewLineChar c = true) : isSpace c = true := by
  simp only [isNewLineChar, isSpace, Bool.or_eq_true, decide_eq_true_eq] at newLine ⊢
  grind

theorem not_newLine_of_space {c : Char} (solid : isSpace c = false) : isNewLineChar c = false := by
  cases newLine : isNewLineChar c with
  | false => rfl
  | true => exact (newLine_space newLine).symm.trans solid

theorem not_space_of_comment {c : Char} (comment : isComment c = true) : isSpace c = false := by
  simp only [isComment, Bool.or_eq_true, decide_eq_true_eq] at comment
  rcases comment with rfl | rfl <;> rfl

theorem lineEnd_cons {c : Char} (inLine : isNewLineChar c = false) (rest : Chars) :
    lineEnd (c :: rest) = lineEnd rest := by
  rw [lineEnd, List.dropWhile_cons, if_pos (by simp [inLine])]
  rfl

def commentStart (allowBlankLines : Bool) (data : Chars) : Chars :=
  if allowBlankLines then data.dropWhile isSpace else data

theorem length_commentStart_le (allowBlankLines : Bool) (data : Chars) :
    (commentStart allowBlankLines data).length ≤ data.length := by
  rw [commentStart]
  split
  · exact length_dropSpace_le data
  · exact Nat.le_refl _

/-- The data behind the first line of a comment. -/
def behindLine (data : Chars) : Chars := skipNewLine (lineEnd data)

theorem length_behindLine_lt {c : Char} (inLine : isNewLineChar c = false) (rest : Chars) :
    (behindLine (c :: rest)).length < (c :: rest).length := by
  have first := length_skipNewLine_le (lineEnd rest)
  have second := length_lineEnd_le rest
  rw [behindLine, lineEnd_cons inLine, List.length_cons]
  omega

/-- `LoadMultiLineText` over a comment: its lines, and what is behind it. The blank lines before
another comment belong to it. -/
def loadMultiLineText (allowBlankLines : Bool) (data : Chars) : List Chars × Chars :=
  match start : commentStart allowBlankLines data with
  | [] => ([], data)
  | c :: rest =>
      if comment : isComment c then
        let next := loadMultiLineText allowBlankLines (behindLine (c :: rest))
        (List.replicate (newLines data) [] ++ lineText (c :: rest) :: next.1, next.2)
      else ([], data)
termination_by data.length
decreasing_by
  have inLine := not_newLine_of_space (not_space_of_comment comment)
  have shorter := length_commentStart_le allowBlankLines data
  rw [start] at shorter
  exact Nat.lt_of_lt_of_le (length_behindLine_lt inLine rest) shorter

theorem length_loadMultiLineText_le (allowBlankLines : Bool) (data : Chars) :
    (loadMultiLineText allowBlankLines data).2.length ≤ data.length := by
  fun_induction loadMultiLineText allowBlankLines data with
  | case1 | case3 => exact Nat.le_refl _
  | case2 data c rest start comment next ih =>
    have inLine := not_newLine_of_space (not_space_of_comment comment)
    have shorter := length_commentStart_le allowBlankLines data
    have less := length_behindLine_lt inLine rest
    rw [start] at shorter
    exact (ih.trans (Nat.le_of_lt less)).trans shorter

theorem length_loadMultiLineText_lt (allowBlankLines : Bool) {c : Char}
    (comment : isComment c = true) (rest : Chars) :
    (loadMultiLineText allowBlankLines (c :: rest)).2.length < (c :: rest).length := by
  have solid := not_space_of_comment comment
  have same : commentStart allowBlankLines (c :: rest) = c :: rest := by
    rw [commentStart, List.dropWhile_cons_of_neg (by simp [solid]), ite_self]
  have less := length_behindLine_lt (not_newLine_of_space solid) rest
  rw [loadMultiLineText]
  split
  · next start => cases start.symm.trans same
  · next d more start =>
    cases start.symm.trans same
    rw [dif_pos comment]
    exact Nat.lt_of_le_of_lt (length_loadMultiLineText_le _ _) less

/-- What `a_pSection` points to: a name, or text that a NUL is still to be put in. -/
inductive IniSection
  | named (name : Chars)
  | unended (text : Chars)

/-- The string at the pointer, when `text` gets its NUL where the data is `data`. -/
def IniSection.name (pSection : IniSection) (data text : Chars) : Chars :=
  match pSection with
  | .named name => name
  | .unended start => start.take (start.length - data.length) ++ text

inductive IniStep
  | done
  | skip (pSection : IniSection) (rest : Chars)
  | found (name : Chars) (item : Option (Chars × Chars)) (rest : Chars)

/-- A header, from behind the bracket and the space that follows it. -/
def headerStep (start : Chars) : IniStep :=
  match atStop ']' start with
  | ']' :: behind => .found (trimRight (upTo ']' start)) none (lineEnd behind)
  | behind => .skip (.unended start) behind

def keyStep (pSection : IniSection) (data : Chars) : IniStep :=
  let key := upTo '=' data
  match atStop '=' data with
  | '=' :: behind =>
      if key = [] then .skip pSection (lineEnd behind)
      else
        let value := behind.dropWhile fun c => !isNewLineChar c && isSpace c
        .found (pSection.name data (trimRight key))
          (some (trimRight key, trimRight (lineText value))) (behindLine value)
  | behind => .skip pSection behind

/-- One pass through the loop of `FindEntry`. -/
def step (pSection : IniSection) (data : Chars) : IniStep :=
  match data.dropWhile isSpace with
  | [] => .done
  | c :: rest =>
      if isComment c then
        let comment := loadMultiLineText true (c :: rest)
        .skip (.named (pSection.name (c :: rest) (['\n'].intercalate comment.1))) comment.2
      else if c = '[' then headerStep (rest.dropWhile isSpace)
      else keyStep pSection (c :: rest)

def IniStep.rest : IniStep → Chars
  | .done => []
  | .skip _ rest | .found _ _ rest => rest

theorem solid_of_dropSpace {data rest : Chars} {c : Char}
    (start : data.dropWhile isSpace = c :: rest) : isSpace c = false := by
  have first := List.head?_dropWhile_not isSpace data
  rw [start] at first
  exact first

theorem length_behindLine_le (data : Chars) : (behindLine data).length ≤ data.length :=
  (length_skipNewLine_le _).trans (length_lineEnd_le data)

theorem rest_headerStep_le (start : Chars) : (headerStep start).rest.length ≤ start.length := by
  have stopped := length_atStop_le ']' start
  rw [headerStep]
  split
  · next behind found =>
    have ended := length_lineEnd_le behind
    rw [found, List.length_cons] at stopped
    simp only [IniStep.rest]
    omega
  · exact stopped

theorem rest_keyStep_lt (pSection : IniSection) {c : Char} (solid : isSpace c = false)
    (rest : Chars) : (keyStep pSection (c :: rest)).rest.length < (c :: rest).length := by
  rw [keyStep]
  dsimp only
  split
  · next behind found =>
    have stopped := length_atStop_le '=' (c :: rest)
    rw [found, List.length_cons] at stopped
    split
    · have ended := length_lineEnd_le behind
      simp only [IniStep.rest]
      omega
    · have value := (List.dropWhile_suffix
        (l := behind) fun c => !isNewLineChar c && isSpace c).length_le
      have ended := length_behindLine_le
        (behind.dropWhile fun c => !isNewLineChar c && isSpace c)
      simp only [IniStep.rest]
      omega
  · next missing =>
    have other : c ≠ '=' := by
      rintro rfl
      exact missing rest rfl
    have inLine := not_newLine_of_space solid
    have stopped := length_atStop_le '=' rest
    have same : atStop '=' (c :: rest) = atStop '=' rest :=
      List.dropWhile_cons_of_pos (by simp [other, inLine])
    simp only [IniStep.rest, same, List.length_cons]
    omega

theorem rest_step_lt (pSection : IniSection) {data : Chars} (some : data ≠ []) :
    (step pSection data).rest.length < data.length := by
  have shorter := length_dropSpace_le data
  rw [step]
  split
  · exact List.length_pos_iff.mpr some
  · next c rest start =>
    rw [start] at shorter
    split
    · next comment =>
      exact Nat.lt_of_lt_of_le (length_loadMultiLineText_lt true comment rest) shorter
    · split
      · have begun := length_dropSpace_le rest
        have behind := rest_headerStep_le (rest.dropWhile isSpace)
        rw [List.length_cons] at shorter
        omega
      · have behind := rest_keyStep_lt pSection (solid_of_dropSpace start) rest
        omega

/-- The entries that `LoadData` adds: the section, and a key with its value unless the entry is
the section itself. -/
def loadEntries (pSection : IniSection) (data : Chars) : List (Chars × Option (Chars × Chars)) :=
  if _ : data = [] then []
  else
    match _ : step pSection data with
    | .done => []
    | .skip next rest => loadEntries next rest
    | .found name item rest => (name, item) :: loadEntries (.named name) rest
termination_by data.length
decreasing_by
  all_goals
    have shorter := rest_step_lt pSection ‹data ≠ []›
    rw [‹step pSection data = _›] at shorter
    exact shorter

/-! The data: sections with their keys, both found without regard to case. -/

variable {V : Type*}

def lookup (name : Chars) : List (Chars × V) → Option V
  | [] => none
  | (item, value) :: rest => if sameName item name then some value else lookup name rest

/-- The item keeps the spelling that it came with. -/
def insert (name : Chars) (value : V) : List (Chars × V) → List (Chars × V)
  | [] => [(name, value)]
  | (item, old) :: rest =>
      if sameName item name then (item, value) :: rest else (item, old) :: insert name value rest

abbrev IniData := List (Chars × List (Chars × Chars))

def addEntry (data : IniData) (entry : Chars × Option (Chars × Chars)) : IniData :=
  let keyval := (lookup entry.1 data).getD []
  match entry.2 with
  | none => insert entry.1 keyval data
  | some (key, value) => insert entry.1 (insert key value keyval) data

def getValue (data : IniData) (name key : Chars) : Option Chars :=
  (lookup name data).bind (lookup key)

/-- The text that is parsed: behind the UTF-8 signature, up to a NUL. -/
def content : Chars → Chars
  | '\xEF' :: '\xBB' :: '\xBF' :: text => text.takeWhile (· ≠ '\x00')
  | text => text.takeWhile (· ≠ '\x00')

def loadData (text : Chars) : IniData :=
  let behind := (loadMultiLineText false (content text)).2
  (loadEntries (.named []) behind).foldl addEntry []

/-- `get_config`; a file that cannot be read has no entries. -/
def getConfig (file : Option Chars) (name key fallback : Chars) : Chars :=
  (getValue ((file.map loadData).getD []) name key).getD fallback

end SimpleIni

end AutoDrop
