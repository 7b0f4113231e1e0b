import AutoDrop.CliSplit
import AutoDrop.LineEditor
import AutoDrop.LineScreen

/-!
`Terminal`: the line under edit with its cursor, and the characters that each key writes to
the console. The colours around the input move no cursor and are left out.
-/

namespace AutoDrop

open LineScreen

inductive KeyType
  | ascii
  | up
  | down
  | left
  | right
  | backspace
  | canc
  | home
  | «end»
  | ret
  | eof
  | ignored
deriving DecidableEq, Repr

inductive Symbol
  | nothing
  | command
  | up
  | down
  | tab
  | eof
deriving DecidableEq, Repr

structure Terminal where
  currentLine : Chars
  position : Nat
  inside : position ≤ currentLine.length
deriving DecidableEq

namespace Terminal

def start : Terminal := ⟨[], 0, Nat.le_refl 0⟩

def resetCursor (terminal : Terminal) : Terminal := ⟨terminal.currentLine, 0, Nat.zero_le _⟩

def atEnd (line : Chars) : Terminal := ⟨line, line.length, Nat.le_refl _⟩

def setLine (terminal : Terminal) (newLine : Chars) : Terminal × Chars :=
  let shorter := terminal.currentLine.length - newLine.length
  (atEnd newLine,
    backspaces terminal.position ++ newLine ++
      if newLine.length < terminal.currentLine.length then spaces shorter ++ backspaces shorter
      else [])

/-- The rest of the line, from the cursor on. -/
def rest (terminal : Terminal) : Chars := terminal.currentLine.drop terminal.position

def eraseBackspace (terminal : Terminal) : Terminal × Chars :=
  if positive : terminal.position = 0 then (terminal, [])
  else
    let position := terminal.position - 1
    let line := terminal.currentLine.eraseIdx position
    have inside : position ≤ line.length := by
      have bound := terminal.inside
      simp only [line, List.length_eraseIdx]
      split <;> omega
    (⟨line, position, inside⟩,
      [LineScreen.backspace] ++ line.drop position ++ [' '] ++
        backspaces (line.length - position + 1))

def insertChar (terminal : Terminal) (c : Char) : Terminal × Chars :=
  have inside : terminal.position + 1 ≤
      (terminal.currentLine.insertIdx terminal.position c).length := by
    rw [List.length_insertIdx_of_le_length terminal.inside]
    exact Nat.succ_le_succ terminal.inside
  (⟨terminal.currentLine.insertIdx terminal.position c, terminal.position + 1, inside⟩,
    [c] ++ terminal.rest ++ backspaces (terminal.currentLine.length - terminal.position))

def eraseCanc (terminal : Terminal) : Terminal × Chars :=
  if last : terminal.position = terminal.currentLine.length then (terminal, [])
  else
    have inside : terminal.position ≤
        (terminal.currentLine.eraseIdx terminal.position).length := by
      have bound := terminal.inside
      simp only [List.length_eraseIdx]
      split <;> omega
    (⟨terminal.currentLine.eraseIdx terminal.position, terminal.position, inside⟩,
      terminal.currentLine.drop (terminal.position + 1) ++ [' '] ++
        backspaces (terminal.currentLine.length - terminal.position))

def moveLeft (terminal : Terminal) : Terminal × Chars :=
  if 0 < terminal.position then
    (⟨terminal.currentLine, terminal.position - 1, Nat.le_trans (Nat.sub_le _ _) terminal.inside⟩,
      [LineScreen.backspace])
  else (terminal, [])

def moveRight (terminal : Terminal) : Terminal × Chars :=
  if more : terminal.position < terminal.currentLine.length then
    (⟨terminal.currentLine, terminal.position + 1, more⟩,
      [terminal.currentLine.get ⟨terminal.position, more⟩])
  else (terminal, [])

/-- What `Keypressed` leaves behind, writes, and returns. -/
def keypressed (terminal : Terminal) (key : KeyType × Char) :
    (Terminal × Chars) × (Symbol × Chars) :=
  match key.1 with
  | .eof => ((terminal, []), (.eof, []))
  | .backspace => (terminal.eraseBackspace, (.nothing, []))
  | .up => ((terminal, []), (.up, []))
  | .down => ((terminal, []), (.down, []))
  | .left => (terminal.moveLeft, (.nothing, []))
  | .right => (terminal.moveRight, (.nothing, []))
  | .ret => ((start, ['\r', '\n']), (.command, terminal.currentLine))
  | .ascii =>
      if key.2 = '\t' then ((terminal, []), (.tab, []))
      else (terminal.insertChar key.2, (.nothing, []))
  | .canc => (terminal.eraseCanc, (.nothing, []))
  | .end => ((atEnd terminal.currentLine, terminal.rest), (.nothing, []))
  | .home => ((terminal.resetCursor, backspaces terminal.position), (.nothing, []))
  | .ignored => ((terminal, []), (.nothing, []))

def editor (terminal : Terminal) : LineEditor Char :=
  .ofCursor terminal.currentLine terminal.position

@[simp] theorem editor_atEnd (line : Chars) : (atEnd line).editor = .replace line := by
  simp [editor, atEnd]

/-- The abstract editor's move for a key. -/
def edit (key : KeyType × Char) (line : LineEditor Char) : LineEditor Char :=
  match key.1 with
  | .backspace => line.eraseBefore
  | .left => line.left
  | .right => line.right
  | .ret => .empty
  | .ascii => if key.2 = '\t' then line else line.insert key.2
  | .canc => line.eraseAfter
  | .end => line.last
  | .home => line.home
  | _ => line

/-- The terminal that is cut there. -/
def between (before after : Chars) : Terminal :=
  ⟨before ++ after, before.length, by simp⟩

theorem between_of_cursor {line before after : Chars} {position : Nat}
    (inside : position ≤ line.length) (sameLine : line = before ++ after)
    (samePosition : position = before.length) :
    (⟨line, position, inside⟩ : Terminal) = between before after := by
  subst sameLine samePosition
  rfl

theorem cut (terminal : Terminal) : ∃ before after, terminal = between before after := by
  obtain ⟨line, position, inside⟩ := terminal
  refine ⟨line.take position, line.drop position, between_of_cursor inside ?_ ?_⟩
  · exact (List.take_append_drop position line).symm
  · exact (List.length_take_of_le inside).symm

@[simp] theorem editor_between (before after : Chars) :
    (between before after).editor = ⟨before, after⟩ :=
  LineEditor.ofCursor_append before after

@[simp] theorem currentLine_between (before after : Chars) :
    (between before after).currentLine = before ++ after := rfl

@[simp] theorem position_between (before after : Chars) :
    (between before after).position = before.length := rfl

theorem atEnd_eq (line : Chars) : atEnd line = between line [] :=
  between_of_cursor _ (List.append_nil line).symm rfl

theorem resetCursor_between (before after : Chars) :
    (between before after).resetCursor = between [] (before ++ after) := rfl

theorem rest_between (before after : Chars) : (between before after).rest = after := by
  simp [rest]

theorem setLine_between (before after newLine : Chars) :
    (between before after).setLine newLine =
      (between newLine [], backspaces before.length ++ (newLine ++
        spaces ((before ++ after).length - newLine.length) ++
        backspaces ((before ++ after).length - newLine.length))) := by
  rw [setLine, atEnd_eq]
  by_cases shorter : newLine.length < (between before after).currentLine.length
  · rw [if_pos shorter]
    simp
  · have none : (before ++ after).length - newLine.length = 0 := by
      simp only [currentLine_between] at shorter
      omega
    rw [if_neg shorter, none]
    simp [spaces, backspaces]

theorem eraseBackspace_between_nil (after : Chars) :
    (between [] after).eraseBackspace = (between [] after, []) := by
  simp [eraseBackspace]

theorem eraseBackspace_between (before after : Chars) (c : Char) :
    (between (before ++ [c]) after).eraseBackspace =
      (between before after, [LineScreen.backspace] ++ (after ++ spaces 1 ++
        backspaces (after.length + 1))) := by
  have erased : (before ++ [c] ++ after).eraseIdx before.length = before ++ after := by
    rw [List.append_assoc, List.eraseIdx_append_of_length_le (Nat.le_refl _)]
    simp
  have nonzero : (between (before ++ [c]) after).position ≠ 0 := by simp
  simp only [eraseBackspace, nonzero, dite_false]
  refine Prod.ext (between_of_cursor _ ?_ ?_) ?_
  · simpa using erased
  · simp
  · simp only [currentLine_between, position_between, List.length_append, List.length_singleton,
      Nat.add_sub_cancel, erased]
    simp [spaces]

theorem insertIdx_append_length (before after : Chars) (c : Char) :
    (before ++ after).insertIdx before.length c = before ++ c :: after := by
  induction before with
  | nil => rfl
  | cons d before ih => simp [ih]

theorem insertChar_between (before after : Chars) (c : Char) :
    (between before after).insertChar c =
      (between (before ++ [c]) after, [c] ++ after ++ backspaces after.length) := by
  refine Prod.ext (between_of_cursor _ ?_ ?_) ?_
  · simpa using insertIdx_append_length before after c
  · simp
  · simp [insertChar, rest_between]

theorem eraseCanc_between_nil (before : Chars) :
    (between before []).eraseCanc = (between before [], []) := by
  simp [eraseCanc]

theorem eraseCanc_between (before after : Chars) (c : Char) :
    (between before (c :: after)).eraseCanc =
      (between before after, after ++ spaces 1 ++ backspaces (after.length + 1)) := by
  have more : (between before (c :: after)).position ≠
      (between before (c :: after)).currentLine.length := by simp
  simp only [eraseCanc, more, dite_false]
  refine Prod.ext (between_of_cursor _ ?_ ?_) ?_
  · simp [List.eraseIdx_append_of_length_le]
  · rfl
  · simp [spaces]

theorem moveLeft_between_nil (after : Chars) :
    (between [] after).moveLeft = (between [] after, []) := by
  simp [moveLeft]

theorem moveLeft_between (before after : Chars) (c : Char) :
    (between (before ++ [c]) after).moveLeft =
      (between before (c :: after), [LineScreen.backspace]) := by
  simp only [moveLeft, position_between, List.length_append, List.length_singleton,
    Nat.zero_lt_succ, if_true]
  refine Prod.ext (between_of_cursor _ ?_ ?_) rfl
  · simp
  · simp

theorem moveRight_between_nil (before : Chars) :
    (between before []).moveRight = (between before [], []) := by
  simp [moveRight]

theorem moveRight_between (before after : Chars) (c : Char) :
    (between before (c :: after)).moveRight = (between (before ++ [c]) after, [c]) := by
  have more : (between before (c :: after)).position <
      (between before (c :: after)).currentLine.length := by simp
  simp only [moveRight, more, dite_true]
  refine Prod.ext (between_of_cursor _ ?_ ?_) ?_
  · simp
  · simp
  · simp

/-- Each key does to the line what it does to the abstract editor. -/
theorem editor_keypressed (terminal : Terminal) (key : KeyType × Char) :
    (terminal.keypressed key).1.1.editor = edit key terminal.editor := by
  obtain ⟨before, after, rfl⟩ := terminal.cut
  obtain ⟨type, c⟩ := key
  cases type
  case ascii =>
    simp only [keypressed, edit]
    split
    · rfl
    · simp [insertChar_between, LineEditor.insert]
  case backspace =>
    rcases List.eq_nil_or_concat' before with rfl | ⟨before, d, rfl⟩
    · simp [keypressed, edit, eraseBackspace_between_nil, LineEditor.eraseBefore]
    · simp [keypressed, edit, eraseBackspace_between, LineEditor.eraseBefore]
  case left =>
    rcases List.eq_nil_or_concat' before with rfl | ⟨before, d, rfl⟩
    · simp [keypressed, edit, moveLeft_between_nil, LineEditor.left]
    · simp [keypressed, edit, moveLeft_between, LineEditor.left]
  case right =>
    cases after with
    | nil => simp [keypressed, edit, moveRight_between_nil, LineEditor.right]
    | cons d after => simp [keypressed, edit, moveRight_between, LineEditor.right]
  case canc =>
    cases after with
    | nil => simp [keypressed, edit, eraseCanc_between_nil, LineEditor.eraseAfter]
    | cons d after => simp [keypressed, edit, eraseCanc_between, LineEditor.eraseAfter]
  case home =>
    simp [keypressed, edit, resetCursor_between, LineEditor.home, LineEditor.text]
  case «end» =>
    simp [keypressed, edit, LineEditor.last, LineEditor.replace, LineEditor.text]
  all_goals rfl

theorem text_editor (terminal : Terminal) : terminal.editor.text = terminal.currentLine :=
  LineEditor.text_ofCursor _ _

theorem before_editor (terminal : Terminal) :
    terminal.editor.before.length = terminal.position :=
  List.length_take_of_le terminal.inside

/-- The keys that the terminal answers alone. -/
def Editing (key : KeyType × Char) : Prop :=
  key.1 ∉ [.up, .down, .ret, .eof] ∧ (key.1 = .ascii → key.2 ≠ '\t')

instance (key : KeyType × Char) : Decidable (Editing key) :=
  inferInstanceAs (Decidable (_ ∧ (_ → _)))

theorem symbol_of_editing (terminal : Terminal) {key : KeyType × Char} (editing : Editing key) :
    (terminal.keypressed key).2 = (.nothing, []) := by
  obtain ⟨type, c⟩ := key
  obtain ⟨own, plain⟩ := editing
  cases type
  case ascii => simp [keypressed, plain rfl]
  all_goals simp_all [keypressed]

/-- The display reads the line behind `lead`, with its cursor on the terminal's. -/
structure OnScreen (screen : LineScreen) (lead : Chars) (terminal : Terminal) : Prop where
  printable : ∀ c ∈ terminal.currentLine, Printable c
  shown : screen.Shows (lead ++ terminal.currentLine) (lead.length + terminal.position)

def Typeable (key : KeyType × Char) : Prop :=
  key.1 = .ascii → Printable key.2 ∨ key.2 = '\t'

instance (key : KeyType × Char) : Decidable (Typeable key) :=
  inferInstanceAs (Decidable (_ → _))

section OnScreen

variable {screen : LineScreen} {lead before after newLine : Chars} {c : Char}

theorem onScreen_between : OnScreen screen lead (between before after) ↔
    (∀ c ∈ before ++ after, Printable c) ∧
      screen.Shows ((lead ++ before) ++ after) (lead ++ before).length := by
  have row : lead ++ (before ++ after) = lead ++ before ++ after := by simp
  have column : lead.length + before.length = (lead ++ before).length := by simp
  constructor
  · intro onScreen
    refine ⟨onScreen.printable, ?_⟩
    have shown := onScreen.shown
    rwa [currentLine_between, position_between, row, column] at shown
  · rintro ⟨printable, shown⟩
    refine ⟨printable, ?_⟩
    rwa [currentLine_between, position_between, row, column]

theorem OnScreen.eraseBackspace (onScreen : OnScreen screen lead (between (before ++ [c]) after)) :
    OnScreen (screen.write ([LineScreen.backspace] ++ (after ++ spaces 1 ++
      backspaces (after.length + 1)))) lead (between before after) := by
  rw [onScreen_between] at onScreen ⊢
  obtain ⟨printable, shown⟩ := onScreen
  have moved : (screen.put LineScreen.backspace).Shows ((lead ++ before) ++ (c :: after))
      (lead ++ before).length := by simpa using shown.put_backspace
  rw [List.singleton_append, write_cons]
  refine ⟨fun d member => printable d (by simp at member ⊢; tauto), ?_⟩
  have drawn := moved.replaceRest (fun d member => printable d (by simp [member]))
    (Nat.le_refl (after.length + 1)) (after.length + 1)
  rwa [Nat.add_assoc, Nat.add_sub_cancel] at drawn

theorem OnScreen.insertChar (onScreen : OnScreen screen lead (between before after))
    (typed : Printable c) :
    OnScreen (screen.write ([c] ++ after ++ backspaces after.length)) lead
      (between (before ++ [c]) after) := by
  rw [onScreen_between] at onScreen ⊢
  obtain ⟨printable, shown⟩ := onScreen
  have text : ∀ d ∈ [c] ++ after, Printable d := by
    intro d member
    rcases List.mem_append.mp member with new | old
    · exact List.mem_singleton.mp new ▸ typed
    · exact printable d (List.mem_append_right _ old)
  refine ⟨fun d member => ?_, ?_⟩
  · have among : d ∈ before ∨ d ∈ [c] ++ after := by simpa using member
    rcases among with old | new
    · exact printable d (List.mem_append_left _ old)
    · exact text d new
  · have drawn := shown.redraw text after.length
    have nothing : after.drop ([c] ++ after).length = [] := by simp
    have back : (lead ++ before).length + ([c] ++ after).length - after.length =
        (lead ++ (before ++ [c])).length := by simp; omega
    rw [nothing, List.append_nil, back] at drawn
    simpa using drawn

theorem OnScreen.eraseCanc (onScreen : OnScreen screen lead (between before (c :: after))) :
    OnScreen (screen.write (after ++ spaces 1 ++ backspaces (after.length + 1))) lead
      (between before after) := by
  rw [onScreen_between] at onScreen ⊢
  obtain ⟨printable, shown⟩ := onScreen
  refine ⟨fun d member => printable d (by simp at member ⊢; tauto), ?_⟩
  have drawn := shown.replaceRest (fun d member => printable d (by simp [member]))
    (Nat.le_refl (after.length + 1)) (after.length + 1)
  rwa [Nat.add_assoc, Nat.add_sub_cancel] at drawn

theorem OnScreen.moveLeft (onScreen : OnScreen screen lead (between (before ++ [c]) after)) :
    OnScreen (screen.write [LineScreen.backspace]) lead (between before (c :: after)) := by
  rw [onScreen_between] at onScreen ⊢
  obtain ⟨printable, shown⟩ := onScreen
  refine ⟨fun d member => printable d (by simpa using member), ?_⟩
  simpa using shown.put_backspace

/-- Writing the next part of the line again moves the cursor behind it. -/
theorem OnScreen.rewrite {part : Chars}
    (onScreen : OnScreen screen lead (between before (part ++ after))) :
    OnScreen (screen.write part) lead (between (before ++ part) after) := by
  rw [onScreen_between] at onScreen ⊢
  obtain ⟨printable, shown⟩ := onScreen
  refine ⟨fun d member => printable d (by simpa using member), ?_⟩
  have typed : ∀ d ∈ part, Printable d := fun d member => printable d (by simp [member])
  simpa using shown.write_printable typed

theorem OnScreen.home (onScreen : OnScreen screen lead (between before after)) :
    OnScreen (screen.write (backspaces before.length)) lead (between [] (before ++ after)) := by
  rw [onScreen_between] at onScreen ⊢
  obtain ⟨printable, shown⟩ := onScreen
  refine ⟨printable, ?_⟩
  simpa using shown.write_backspaces before.length

theorem OnScreen.setLine {terminal : Terminal} (onScreen : OnScreen screen lead terminal)
    (typed : ∀ d ∈ newLine, Printable d) :
    OnScreen (screen.write (terminal.setLine newLine).2) lead (terminal.setLine newLine).1 := by
  obtain ⟨before, after, rfl⟩ := terminal.cut
  rw [setLine_between, onScreen_between]
  refine ⟨by simpa using typed, ?_⟩
  obtain ⟨-, home⟩ := onScreen_between.mp onScreen.home
  rw [List.append_nil] at home
  rw [write_append]
  have covered : (before ++ after).length ≤
      newLine.length + ((before ++ after).length - newLine.length) := by omega
  simpa using home.replaceRest typed covered ((before ++ after).length - newLine.length)

/-- Any key but the one that submits the line keeps the display in step with the terminal. -/
theorem OnScreen.keypressed {terminal : Terminal} {key : KeyType × Char}
    (onScreen : OnScreen screen lead terminal) (typeable : Typeable key)
    (unsubmitted : key.1 ≠ .ret) :
    OnScreen (screen.write (terminal.keypressed key).1.2) lead (terminal.keypressed key).1.1 := by
  obtain ⟨before, after, rfl⟩ := terminal.cut
  obtain ⟨type, c⟩ := key
  cases type
  case ret => exact absurd rfl unsubmitted
  case ascii =>
    by_cases tab : c = '\t'
    · simpa [Terminal.keypressed, tab] using onScreen
    · have typed : Printable c := (typeable rfl).resolve_right tab
      simp only [Terminal.keypressed, tab, if_false, insertChar_between]
      exact onScreen.insertChar typed
  case backspace =>
    rcases List.eq_nil_or_concat' before with rfl | ⟨before, d, rfl⟩
    · simpa [Terminal.keypressed, eraseBackspace_between_nil] using onScreen
    · simp only [Terminal.keypressed, eraseBackspace_between]
      exact onScreen.eraseBackspace
  case left =>
    rcases List.eq_nil_or_concat' before with rfl | ⟨before, d, rfl⟩
    · simpa [Terminal.keypressed, moveLeft_between_nil] using onScreen
    · simp only [Terminal.keypressed, moveLeft_between]
      exact onScreen.moveLeft
  case right =>
    cases after with
    | nil => simpa [Terminal.keypressed, moveRight_between_nil] using onScreen
    | cons d after =>
        simp only [Terminal.keypressed, moveRight_between]
        exact OnScreen.rewrite onScreen
  case canc =>
    cases after with
    | nil => simpa [Terminal.keypressed, eraseCanc_between_nil] using onScreen
    | cons d after =>
        simp only [Terminal.keypressed, eraseCanc_between]
        exact onScreen.eraseCanc
  case home => exact onScreen.home
  case «end» =>
    simp only [Terminal.keypressed, rest_between, atEnd_eq]
    apply OnScreen.rewrite
    simpa using onScreen
  all_goals exact onScreen

end OnScreen

end Terminal

end AutoDrop
