import AutoDrop.CliCompletion
import AutoDrop.ConsoleHistory
import AutoDrop.ConsoleTerminal

/-!
`InputHandler` between the keyboard, the terminal and the session. What the menus do with a
line is a parameter: their prompt, their completions, and for a line the menus behind it, what
its command writes, and whether it calls `Exit`.
-/

namespace AutoDrop

open LabelledRun LineScreen

structure ConsoleMenus (Menus : Type*) where
  prompt : Menus → Chars
  getCompletions : Menus → Chars → List Chars
  scanCmds : Menus → Chars → Menus × Chars × Bool

/-- `out` is all that was ever written to the console, `stored` the history storage. -/
structure ConsoleSession (Menus : Type*) where
  menus : Menus
  terminal : Terminal
  history : History
  exit : Bool
  stored : List Chars
  out : Chars

/-- `VolatileHistoryStorage::Store`: the latest 1000 commands stay. -/
def storeCommands (commands cmds : List Chars) : List Chars :=
  (commands ++ cmds).drop ((commands ++ cmds).length - 1000)

namespace ConsoleSession

variable {Menus : Type*} (env : ConsoleMenus Menus)

def write (session : ConsoleSession Menus) (text : Chars) : ConsoleSession Menus :=
  { session with out := session.out ++ text }

/-- The actions of `Exit` write nothing. -/
def exitSession (session : ConsoleSession Menus) : Option (ConsoleSession Menus) :=
  session.history.getCommands.map fun cmds =>
    { session with stored := storeCommands session.stored cmds, exit := true }

def feed (session : ConsoleSession Menus) (cmd : Chars) : Option (ConsoleSession Menus) :=
  if SplitText.splitInto cmd = [] then some session
  else
    (session.history.newCommand cmd).bind fun history =>
      let scanned := env.scanCmds session.menus cmd
      let ran : ConsoleSession Menus :=
        { session with
          menus := scanned.1, history := history, out := session.out ++ scanned.2.1 }
      if scanned.2.2 then ran.exitSession else some ran

def promptText (session : ConsoleSession Menus) : Chars :=
  if session.exit then [] else env.prompt session.menus ++ ['>', ' ']

def showPrompt (session : ConsoleSession Menus) : ConsoleSession Menus :=
  session.write (session.promptText env)

def setLine (session : ConsoleSession Menus) (line : Chars) : ConsoleSession Menus :=
  let set := session.terminal.setLine line
  { session with terminal := set.1, out := session.out ++ set.2 }

def items (completions : List Chars) : Chars := completions.flatMap fun cmd => '\t' :: cmd

def complete (session : ConsoleSession Menus) : Option (ConsoleSession Menus) :=
  let line := session.terminal.currentLine
  match env.getCompletions session.menus line with
  | [] => some session
  | [single] => some (session.setLine (single ++ [' ']))
  | completions =>
      (commonPrefix completions).map fun common =>
        if line.length < common.length then session.setLine common
        else
          let listed := (session.write (['\n'] ++ items completions ++ ['\n'])).showPrompt env
          { listed with terminal := listed.terminal.resetCursor }.setLine line

def newCommand (session : ConsoleSession Menus) (symbol : Symbol × Chars) :
    Option (ConsoleSession Menus) :=
  match symbol.1 with
  | .nothing => some session
  | .eof => session.exitSession
  | .command => (session.feed env symbol.2).map fun fed => fed.showPrompt env
  | .down =>
      session.history.next.map fun found => { session with history := found.1 }.setLine found.2
  | .up =>
      (session.history.previous session.terminal.currentLine).map fun found =>
        { session with history := found.1 }.setLine found.2
  | .tab => session.complete env

def keypressed (session : ConsoleSession Menus) (key : KeyType × Char) :
    Option (ConsoleSession Menus) :=
  let pressed := session.terminal.keypressed key
  newCommand env { session with terminal := pressed.1.1, out := session.out ++ pressed.1.2 }
    pressed.2

/-- `CliLocalTerminalSession`: the stored commands are loaded and the prompt is shown. -/
def start (menus : Menus) (stored : List Chars) (size : Nat) : ConsoleSession Menus :=
  showPrompt env ⟨menus, .start, (History.new size).loadCommands stored, false, stored, []⟩

end ConsoleSession

def Clean (line : Chars) : Prop := ∀ c ∈ line, Printable c

instance (line : Chars) : Decidable (Clean line) := List.decidableBAll _ line

/-- Prompts and completions are printable, and what a command writes moves the cursor
forward. -/
structure ConsoleMenus.Tidy {Menus : Type*} (env : ConsoleMenus Menus) : Prop where
  prompt : ∀ menus, Clean (env.prompt menus)
  completions : ∀ menus line, ∀ offered ∈ env.getCompletions menus line, Clean offered
  output : ∀ menus line, Clean line → ∀ c ∈ (env.scanCmds menus line).2.1, Forward c

namespace ConsoleSession

variable {Menus : Type*} {env : ConsoleMenus Menus} {session : ConsoleSession Menus} {line : Chars}

def screen (session : ConsoleSession Menus) : LineScreen := blank.write session.out

/-- The console shows the prompt, the line behind it, and the cursor in the line. -/
def Shown (env : ConsoleMenus Menus) (session : ConsoleSession Menus) : Prop :=
  ∃ lead, session.terminal.OnScreen session.screen lead ∧ session.promptText env <:+ lead

structure Faithful (env : ConsoleMenus Menus) (session : ConsoleSession Menus) : Prop where
  sound : session.history.Sound
  clean : ∀ entry ∈ session.history.buffer, Clean entry
  shown : Shown env session

theorem screen_write (session : ConsoleSession Menus) (text : Chars) :
    (session.write text).screen = session.screen.write text :=
  write_append _ _ _

theorem Shown.setLine (shown : Shown env session) (clean : Clean line) :
    Shown env (session.setLine line) := by
  obtain ⟨lead, onScreen, prompted⟩ := shown
  refine ⟨lead, ?_, prompted⟩
  have moved : (session.setLine line).screen =
      session.screen.write (session.terminal.setLine line).2 := write_append _ _ _
  rw [moved]
  exact onScreen.setLine clean

theorem clean_promptText (tidy : env.Tidy) (session : ConsoleSession Menus) :
    Clean (session.promptText env) := by
  intro c member
  rw [promptText] at member
  split at member
  · simp at member
  · rcases List.mem_append.mp member with own | sign
    · exact tidy.prompt session.menus c own
    · have both : Printable '>' ∧ Printable ' ' := by decide
      simp only [List.mem_cons, List.not_mem_nil, or_false] at sign
      rcases sign with rfl | rfl
      · exact both.1
      · exact both.2

/-- Text written behind a row that is blank there. -/
theorem shows_write {row : Chars} (blankRow : session.screen.Shows row row.length)
    (clean : Clean line) :
    (session.write line).screen.Shows (row ++ line) (row ++ line).length := by
  have padded : session.screen.Shows (row ++ []) row.length := by simpa using blankRow
  rw [screen_write]
  simpa using padded.write_printable clean

theorem shown_showPrompt (tidy : env.Tidy) {row : Chars}
    (blankRow : session.screen.Shows row row.length) :
    Shown env { session.showPrompt env with terminal := .start } := by
  have written := shows_write blankRow (clean_promptText tidy session)
  refine ⟨row ++ session.promptText env, ⟨?_, ?_⟩, List.suffix_append _ _⟩
  · intro c member
    cases member
  · have empty : (session.write (session.promptText env)).screen.Shows
        (row ++ session.promptText env ++ []) ((row ++ session.promptText env).length + 0) := by
      simpa using written
    exact empty

theorem Faithful.exitSession (faithful : Faithful env session) :
    ∃ next, session.exitSession = some next ∧ Faithful env next := by
  obtain ⟨lead, onScreen, -⟩ := faithful.shown
  obtain ⟨cmds, known⟩ : ∃ cmds, session.history.getCommands = some cmds :=
    ⟨_, History.getCommands_eq faithful.sound⟩
  refine ⟨{ session with stored := storeCommands session.stored cmds, exit := true }, ?_,
    faithful.sound, faithful.clean, lead, onScreen, ?_⟩
  · rw [ConsoleSession.exitSession, known, Option.map_some]
  · exact List.nil_suffix

theorem Faithful.down (faithful : Faithful env session) :
    ∃ next, newCommand env session (.down, []) = some next ∧ Faithful env next := by
  obtain ⟨found, taken, place⟩ := History.next_eq faithful.sound
  have clean : Clean found := by
    rcases place with ⟨-, rfl⟩ | ⟨-, here⟩
    · simp [Clean]
    · exact faithful.clean found (List.mem_of_getElem? here)
  let back : ConsoleSession Menus :=
    { session with history := { session.history with current := session.history.current - 1 } }
  have shown : Shown env back := faithful.shown
  refine ⟨back.setLine found, ?_, faithful.sound.back, faithful.clean, shown.setLine clean⟩
  simp only [newCommand, taken, Option.map_some, back]

theorem Faithful.up (faithful : Faithful env session) :
    ∃ next, newCommand env session (.up, []) = some next ∧ Faithful env next := by
  obtain ⟨found, taken, here⟩ :=
    History.previous_eq faithful.sound session.terminal.currentLine
  obtain ⟨lead, onScreen, prompted⟩ := faithful.shown
  have clean : ∀ entry ∈ (session.history.afterPrevious session.terminal.currentLine).buffer,
      Clean entry := by
    intro entry member
    rcases History.mem_afterPrevious faithful.sound member with rfl | older
    · exact onScreen.printable
    · exact faithful.clean entry older
  let opened : ConsoleSession Menus :=
    { session with history := session.history.afterPrevious session.terminal.currentLine }
  have shown : Shown env opened := ⟨lead, onScreen, prompted⟩
  refine ⟨opened.setLine found, ?_, faithful.sound.afterPrevious _, clean,
    shown.setLine (clean found (List.mem_of_getElem? here))⟩
  simp only [newCommand, taken, Option.map_some, opened]

/-- The line is shown anew below the list of completions. -/
theorem shown_listed (tidy : env.Tidy) (terminal : Terminal) (begins : terminal.position = 0)
    (same : terminal.currentLine = line) (clean : Clean line) (text : Chars) :
    Shown env (setLine { (session.write (text ++ ['\n'])).showPrompt env with
      terminal := terminal } line) := by
  have blankRow : (session.write (text ++ ['\n'])).screen.Shows [] ([] : Chars).length := by
    rw [screen_write, write_append, write_cons, put_lineFeed, write_nil]
    exact shows_blank
  generalize session.write (text ++ ['\n']) = listed at blankRow ⊢
  have prompted := shows_write blankRow (clean_promptText tidy listed)
  rw [List.nil_append] at prompted
  have shown := shows_write prompted clean
  have set : terminal.setLine line = (.atEnd line, line) := by
    simp [Terminal.setLine, begins, same, backspaces]
  refine ⟨promptText env listed, ?_, List.suffix_refl _⟩
  simp only [setLine, set]
  exact ⟨clean, by rwa [List.length_append] at shown⟩

theorem Faithful.complete (tidy : env.Tidy) (faithful : Faithful env session) :
    ∃ next, session.complete env = some next ∧ Faithful env next := by
  obtain ⟨lead, onScreen, prompted⟩ := faithful.shown
  have offered := tidy.completions session.menus session.terminal.currentLine
  rw [ConsoleSession.complete]
  split
  · exact ⟨session, rfl, faithful⟩
  · rename_i single only
    have clean : Clean (single ++ [' ']) := by
      intro c member
      rcases List.mem_append.mp member with own | space
      · exact offered single (only ▸ List.mem_singleton.mpr rfl) c own
      · exact List.mem_singleton.mp space ▸ printable_space
    exact ⟨_, rfl, faithful.sound, faithful.clean, faithful.shown.setLine clean⟩
  · rename_i none several
    obtain ⟨first, member⟩ := List.exists_mem_of_ne_nil _ none
    obtain ⟨common, answer, front⟩ := commonPrefix_of_mem member
    rw [answer, Option.map_some]
    split
    · have clean : Clean common := fun c inside => offered first member c (front.subset inside)
      exact ⟨_, rfl, faithful.sound, faithful.clean, faithful.shown.setLine clean⟩
    · exact ⟨_, rfl, faithful.sound, faithful.clean,
        shown_listed tidy session.terminal.resetCursor rfl rfl onScreen.printable _⟩

/-- Between the line that was submitted and the next prompt. -/
structure Answered (session : ConsoleSession Menus) : Prop where
  sound : session.history.Sound
  clean : ∀ entry ∈ session.history.buffer, Clean entry
  begun : session.terminal = .start
  blankRow : ∃ row, session.screen.Shows row row.length

theorem Answered.exitSession (answered : Answered session) :
    ∃ next, session.exitSession = some next ∧ Answered next := by
  obtain ⟨cmds, known⟩ : ∃ cmds, session.history.getCommands = some cmds :=
    ⟨_, History.getCommands_eq answered.sound⟩
  refine ⟨{ session with stored := storeCommands session.stored cmds, exit := true }, ?_,
    answered.sound, answered.clean, answered.begun, answered.blankRow⟩
  rw [ConsoleSession.exitSession, known, Option.map_some]

theorem Answered.feed (tidy : env.Tidy) (answered : Answered session) (clean : Clean line) :
    ∃ fed, session.feed env line = some fed ∧ Answered fed := by
  rw [ConsoleSession.feed]
  split
  · exact ⟨session, rfl, answered⟩
  · obtain ⟨history, taken, sound, -⟩ := History.newCommand_eq answered.sound line
    rw [taken, Option.bind_some]
    obtain ⟨row, blankRow⟩ := answered.blankRow
    have ran : Answered { session with
        menus := (env.scanCmds session.menus line).1
        history := history
        out := session.out ++ (env.scanCmds session.menus line).2.1 } := by
      refine ⟨sound, fun entry member => ?_, answered.begun, ?_⟩
      · rcases History.mem_newCommand answered.sound taken member with rfl | older
        · exact clean
        · exact answered.clean entry older
      · have written := blankRow.write_forward (tidy.output session.menus line clean)
        rwa [← screen_write] at written
    dsimp only
    split
    · exact ran.exitSession
    · exact ⟨_, rfl, ran⟩

theorem Answered.command (tidy : env.Tidy) (answered : Answered session) (clean : Clean line) :
    ∃ next, newCommand env session (.command, line) = some next ∧ Faithful env next := by
  obtain ⟨fed, taken, after⟩ := answered.feed tidy clean
  obtain ⟨row, blankRow⟩ := after.blankRow
  refine ⟨fed.showPrompt env, by simp [newCommand, taken], after.sound, after.clean, ?_⟩
  have shown := shown_showPrompt tidy blankRow
  rwa [← after.begun] at shown

/-- Every key is answered, and the console shows the line and the cursor again. -/
theorem Faithful.keypressed (tidy : env.Tidy) (faithful : Faithful env session)
    {key : KeyType × Char} (typeable : Terminal.Typeable key) :
    ∃ next, session.keypressed env key = some next ∧ Faithful env next := by
  obtain ⟨lead, onScreen, prompted⟩ := faithful.shown
  by_cases submitted : key.1 = .ret
  · obtain ⟨type, c⟩ := key
    subst submitted
    have opened : (session.write ['\r', '\n']).screen = blank := by
      rw [screen_write, write_cons, write_cons, put_lineFeed, write_nil]
    have answered : Answered { session.write ['\r', '\n'] with terminal := .start } := by
      refine ⟨faithful.sound, faithful.clean, rfl, [], ?_⟩
      exact opened ▸ shows_blank
    exact answered.command tidy onScreen.printable
  · let pressed : ConsoleSession Menus :=
      { session with
        terminal := (session.terminal.keypressed key).1.1
        out := session.out ++ (session.terminal.keypressed key).1.2 }
    have kept : Faithful env pressed := by
      refine ⟨faithful.sound, faithful.clean, lead, ?_, prompted⟩
      have moved : pressed.screen = session.screen.write (session.terminal.keypressed key).1.2 :=
        write_append _ _ _
      rw [moved]
      exact onScreen.keypressed typeable submitted
    rw [ConsoleSession.keypressed]
    change ∃ next, newCommand env pressed (session.terminal.keypressed key).2 = some next ∧ _
    obtain ⟨type, c⟩ := key
    cases type
    case ret => exact absurd rfl submitted
    case eof => exact kept.exitSession
    case up => exact kept.up
    case down => exact kept.down
    case ascii =>
      by_cases tab : c = '\t'
      · have symbol : (session.terminal.keypressed (.ascii, c)).2 = (.tab, []) := by
          simp [Terminal.keypressed, tab]
        rw [symbol]
        exact kept.complete tidy
      · have symbol : (session.terminal.keypressed (.ascii, c)).2 = (.nothing, []) := by
          simp [Terminal.keypressed, tab]
        rw [symbol]
        exact ⟨pressed, rfl, kept⟩
    all_goals exact ⟨pressed, rfl, kept⟩

theorem faithful_start (tidy : env.Tidy) (menus : Menus) {stored : List Chars} {size : Nat}
    (room : 0 < size) (clean : ∀ entry ∈ stored, Clean entry) :
    Faithful env (start env menus stored size) := by
  refine ⟨History.sound_loadCommands room stored, fun entry member => ?_, ?_⟩
  · have loaded : entry ∈ ((History.new size).loadCommands stored).buffer := member
    rw [History.loadCommands_new] at loaded
    exact clean entry (List.mem_reverse.mp (List.mem_of_mem_take loaded))
  · exact shown_showPrompt tidy shows_blank

def echoMenus : ConsoleMenus Unit where
  prompt _ := "ad".toList
  getCompletions _ _ := ["help".toList, "exit".toList]
  scanCmds _ line := ((), "wrong command: ".toList ++ line ++ ['\n'], false)

end ConsoleSession

end AutoDrop
