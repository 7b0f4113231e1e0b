import AutoDrop.CliImport
import AutoDrop.ConsoleInput

/-!
`LinuxKeyboard::Get`, which makes keys of the bytes that the terminal sends, and what a text
does that is pasted into the console: it is the same as a file session over that text.
-/

namespace AutoDrop

open LabelledRun LineScreen SplitText

abbrev Key := KeyType × Char

def escapeKey (ch : UInt8) : KeyType :=
  if ch = 65 then .up
  else if ch = 66 then .down
  else if ch = 68 then .left
  else if ch = 67 then .right
  else if ch = 70 then .end
  else if ch = 72 then .home
  else .ignored

/-- Behind the escape byte; no result where the next byte is still to come. -/
def getEscape : List UInt8 → Option (Key × List UInt8)
  | [] => none
  | [91] => none
  | 91 :: 51 :: [] => none
  | 91 :: 51 :: ch :: rest => some ((if ch = 126 then .canc else .ignored, ' '), rest)
  | 91 :: ch :: rest => some ((escapeKey ch, ' '), rest)
  | _ :: rest => some ((.ignored, ' '), rest)

def getKey : List UInt8 → Option (Key × List UInt8)
  | [] => none
  | ch :: rest =>
      -- EOF is -1, which is the byte 255 in a char
      if ch = 255 ∨ ch = 4 then some ((.eof, ' '), rest)
      else if ch = 127 ∨ ch = 8 then some ((.backspace, ' '), rest)
      else if ch = 10 then some ((.ret, ' '), rest)
      else if ch = 27 then getEscape rest
      else some ((.ascii, Char.ofNat ch.toNat), rest)

theorem getEscape_length {bytes rest : List UInt8} {key : Key}
    (read : getEscape bytes = some (key, rest)) : rest.length < bytes.length := by
  revert read
  fun_cases getEscape bytes
  all_goals
    intro read
    simp at read
  all_goals
    obtain ⟨-, rfl⟩ := read
    simp only [List.length_cons]
    omega

theorem getKey_length {bytes rest : List UInt8} {key : Key}
    (read : getKey bytes = some (key, rest)) : rest.length < bytes.length := by
  cases bytes with
  | nil => simp [getKey] at read
  | cons ch bytes =>
      by_cases escape : ch = 27
      · have behind : getEscape bytes = some (key, rest) := by simpa [getKey, escape] using read
        have shorter := getEscape_length behind
        rw [List.length_cons]
        omega
      · have same : rest = bytes := by
          simp only [getKey, escape, if_false] at read
          grind
        simp [same]

/-- `Read` called as long as whole keys are there. -/
def keysOf (bytes : List UInt8) : List Key :=
  match _whole : getKey bytes with
  | none => []
  | some (key, rest) => key :: keysOf rest
termination_by bytes.length
decreasing_by exact getKey_length _whole

theorem keysOf_of_getKey {bytes rest : List UInt8} {key : Key}
    (read : getKey bytes = some (key, rest)) : keysOf bytes = key :: keysOf rest := by
  rw [keysOf]
  split
  · simp_all
  · simp_all

theorem keysOf_nil : keysOf [] = [] := by
  rw [keysOf]
  rfl

/-- What the terminal sends for a key. -/
def keyBytes : Key → List UInt8
  | (.ascii, c) => [UInt8.ofNat c.toNat]
  | (.eof, _) => [4]
  | (.backspace, _) => [127]
  | (.ret, _) => [10]
  | (.up, _) => [27, 91, 65]
  | (.down, _) => [27, 91, 66]
  | (.right, _) => [27, 91, 67]
  | (.left, _) => [27, 91, 68]
  | (.end, _) => [27, 91, 70]
  | (.home, _) => [27, 91, 72]
  | (.canc, _) => [27, 91, 51, 126]
  | (.ignored, _) => [27, 27]

/-- A character key is a character of its own byte, the other keys bring a blank. -/
def Sendable (key : Key) : Prop :=
  if key.1 = .ascii then key.2 = '\t' ∨ 32 ≤ key.2.toNat ∧ key.2.toNat < 127 else key.2 = ' '

theorem getKey_ascii {c : Char} (plain : c = '\t' ∨ 32 ≤ c.toNat ∧ c.toNat < 127)
    (rest : List UInt8) :
    getKey (UInt8.ofNat c.toNat :: rest) = some ((.ascii, c), rest) := by
  have bound : c.toNat < 127 ∧ (c.toNat = 9 ∨ 32 ≤ c.toNat) := by
    rcases plain with rfl | ⟨lower, upper⟩
    · decide
    · exact ⟨upper, .inr lower⟩
  have size : (UInt8.ofNat c.toNat).toNat = c.toNat := by
    rw [UInt8.toNat_ofNat']
    omega
  have other : ∀ byte : UInt8, byte.toNat ≠ c.toNat → UInt8.ofNat c.toNat ≠ byte := by
    intro byte differ same
    exact differ (by rw [← same, size])
  have eof := other 255 (by simp; omega)
  have eot := other 4 (by simp; omega)
  have del := other 127 (by simp; omega)
  have bs := other 8 (by simp; omega)
  have lf := other 10 (by simp; omega)
  have esc := other 27 (by simp; omega)
  simp [getKey, eof, eot, del, bs, lf, esc, size]

theorem getKey_keyBytes {key : Key} (sendable : Sendable key) (rest : List UInt8) :
    getKey (keyBytes key ++ rest) = some (key, rest) := by
  obtain ⟨type, c⟩ := key
  cases type
  case ascii => exact getKey_ascii (by simpa [Sendable] using sendable) rest
  all_goals
    obtain rfl : c = ' ' := by simpa [Sendable] using sendable
    rfl

/-- The keys are read back from their bytes, however many are sent at once. -/
theorem keysOf_keyBytes {keys : List Key} (sendable : ∀ key ∈ keys, Sendable key) :
    keysOf (keys.flatMap keyBytes) = keys := by
  induction keys with
  | nil => exact keysOf_nil
  | cons key keys ih =>
      have first := getKey_keyBytes (sendable key List.mem_cons_self) (keys.flatMap keyBytes)
      rw [List.flatMap_cons, keysOf_of_getKey first,
        ih fun other member => sendable other (List.mem_cons_of_mem key member)]

def typed (text : Chars) : List Key :=
  text.map fun c => if c = '\n' then (.ret, ' ') else (.ascii, c)

def textBytes (text : Chars) : List UInt8 := text.map fun c => UInt8.ofNat c.toNat

def Ascii (text : Chars) : Prop := ∀ c ∈ text, c = '\n' ∨ 32 ≤ c.toNat ∧ c.toNat < 127

instance (text : Chars) : Decidable (Ascii text) := List.decidableBAll _ text

theorem keysOf_textBytes {text : Chars} (ascii : Ascii text) :
    keysOf (textBytes text) = typed text := by
  have bytes : textBytes text = (typed text).flatMap keyBytes := by
    induction text with
    | nil => rfl
    | cons c text ih =>
        have later := ih fun d member => ascii d (List.mem_cons_of_mem c member)
        rw [textBytes, List.map_cons, typed, List.map_cons, List.flatMap_cons]
        rw [textBytes, typed] at later
        rw [← later]
        split
        · rename_i newline
          subst newline
          rfl
        · rfl
  rw [bytes]
  apply keysOf_keyBytes
  intro key member
  obtain ⟨c, listed, rfl⟩ := List.mem_map.mp member
  split
  · simp [Sendable]
  · rename_i other
    have plain := (ascii c listed).resolve_left other
    simp [Sendable, plain]

namespace ConsoleSession

variable {Menus : Type*} {env : ConsoleMenus Menus} {session : ConsoleSession Menus}

/-- What a line that is fed does to the menus. -/
def runLine (env : ConsoleMenus Menus) (menus : Menus) (line : Chars) : Menus :=
  if SplitText.splitInto line = [] then menus else (env.scanCmds menus line).1

theorem feed_menus (sound : session.history.Sound) (line : Chars) :
    ∃ fed, session.feed env line = some fed ∧ fed.menus = runLine env session.menus line ∧
      fed.terminal = session.terminal ∧ fed.history.Sound := by
  rw [feed, runLine]
  split
  · exact ⟨session, rfl, rfl, rfl, sound⟩
  · obtain ⟨history, taken, kept, -⟩ := History.newCommand_eq sound line
    rw [taken, Option.bind_some]
    dsimp only
    split
    · rw [exitSession, History.getCommands_eq kept]
      exact ⟨_, rfl, rfl, rfl, kept⟩
    · exact ⟨_, rfl, rfl, rfl, kept⟩

theorem getlines_single {line : Chars} (single : '\n' ∉ line) : getlines line = ([], line) := by
  induction line with
  | nil => rfl
  | cons c line ih =>
      simp only [List.mem_cons, not_or] at single
      rw [getlines, if_neg (Ne.symm single.1), ih single.2]

/-- A text that is typed runs its lines in their order; the last one is left under edit. -/
theorem exec_typed (sound : session.history.Sound) {front : Chars} (single : '\n' ∉ front)
    (place : session.terminal = .between front []) {text : Chars} (plain : '\t' ∉ text) :
    ∃ final, exec (keypressed env) session (typed text) = some final ∧
      final.menus = (getlines (front ++ text)).1.foldl (runLine env) session.menus ∧
      final.terminal.currentLine = (getlines (front ++ text)).2 := by
  induction text generalizing session front with
  | nil =>
      refine ⟨session, rfl, ?_, ?_⟩
      · rw [List.append_nil, getlines_single single]
        rfl
      · rw [place, List.append_nil, getlines_single single]
        simp
  | cons c text ih =>
      simp only [List.mem_cons, not_or] at plain
      by_cases newline : c = '\n'
      · subst newline
        obtain ⟨fed, taken, menus, terminal, kept⟩ := @feed_menus _ env
          { session with terminal := .start, out := session.out ++ ['\r', '\n'] } sound front
        have pressed : session.keypressed env (.ret, ' ') = some (fed.showPrompt env) := by
          simp [keypressed, Terminal.keypressed, newCommand, place, taken]
        have opened : (fed.showPrompt env).terminal = .between [] [] := terminal
        have prompted : (fed.showPrompt env).history.Sound := kept
        obtain ⟨final, run, after, last⟩ := ih prompted (by simp) opened plain.2
        have first : (fed.showPrompt env).menus = runLine env session.menus front := menus
        refine ⟨final, exec_cons_eq_some.mpr ⟨_, pressed, run⟩, ?_, ?_⟩
        · rw [after, getlines_append single, List.nil_append, List.foldl_cons, first]
        · rw [last, getlines_append single, List.nil_append]
      · have tab : c ≠ '\t' := fun same => plain.1 same.symm
        let typedOne : ConsoleSession Menus :=
          { session with
            terminal := .between (front ++ [c]) []
            out := session.out ++ ([c] ++ [] ++ backspaces 0) }
        have pressed : session.keypressed env (.ascii, c) = some typedOne := by
          simp [keypressed, Terminal.keypressed, newCommand, place, tab,
            Terminal.insertChar_between, typedOne]
        have longer : '\n' ∉ front ++ [c] := by simp [single, Ne.symm newline]
        obtain ⟨final, run, after, last⟩ := @ih typedOne sound _ longer rfl plain.2
        have step : typed (c :: text) = (.ascii, c) :: typed text := by simp [typed, newline]
        refine ⟨final, ?_, ?_, ?_⟩
        · rw [step]
          exact exec_cons_eq_some.mpr ⟨typedOne, pressed, run⟩
        · simpa using after
        · simpa using last

end ConsoleSession

namespace CliSession

variable {env : CliEnv} {session next : CliSession} {words : List Chars}

theorem exit_execIn {menu : Submenu} (ran : execIn env menu session words = some next) :
    next.exit = session.exit := by
  cases words with
  | nil => simp [execIn] at ran
  | cons name params =>
      simp only [execIn] at ran
      split at ran
      · obtain rfl := Option.some.inj ran
        rfl
      · grind

theorem exit_execMenu {menu : Submenu} (ran : execMenu env session menu words = some next) :
    next.exit = session.exit := by
  match words with
  | [] => simp [execMenu] at ran
  | [name] =>
      simp only [execMenu, Option.ite_none_right_eq_some, Option.some.injEq] at ran
      obtain ⟨-, rfl⟩ := ran
      rfl
  | name :: param :: rest =>
      simp only [execMenu, Option.ite_none_right_eq_some] at ran
      exact exit_execIn ran.2

theorem exit_execRoot (ran : execRoot env session words = some next) :
    next.exit = session.exit := by
  rw [execRoot] at ran
  split at ran
  · rename_i found menus
    obtain rfl := Option.some.inj ran
    obtain ⟨menu, -, taken⟩ := List.exists_of_findSome?_eq_some menus
    exact exit_execMenu taken
  · grind

theorem exit_execParent (ran : execParent env session words = some next) :
    next.exit = session.exit := by
  cases words with
  | nil => simp [execParent] at ran
  | cons name rest =>
      rw [execParent] at ran
      split at ran
      · simp at ran
      split at ran
      · obtain rfl := Option.some.inj ran
        rfl
      · exact exit_execRoot ran

theorem exit_scanCmds (ran : scanCmds env session words = some next) :
    next.exit = session.exit := by
  rw [scanCmds] at ran
  split at ran
  · exact exit_execRoot ran
  · split at ran
    · rename_i found taken
      obtain rfl := Option.some.inj ran
      exact exit_execIn taken
    · exact exit_execParent ran

theorem exit_feed {line : Chars} (stays : splitInto line ≠ ["exit".toList]) :
    (feed env session line).exit = session.exit := by
  simp only [feed, stays, if_false]
  split
  · rfl
  · cases ran : scanCmds env session (splitInto line) with
    | none => rfl
    | some next => exact exit_scanCmds ran

theorem feedLines_of_stays {lines : List Chars} (begun : session.exit = false)
    (stays : ∀ line ∈ lines, splitInto line ≠ ["exit".toList]) :
    feedLines env session lines = lines.foldl (feed env) session := by
  induction lines generalizing session with
  | nil => rfl
  | cons line lines ih =>
      have kept : (feed env session line).exit = false :=
        (exit_feed (stays line List.mem_cons_self)).trans begun
      have later := ih kept fun other member => stays other (List.mem_cons_of_mem line member)
      simpa [feedLines, begun] using later

theorem feed_blank {line : Chars} (blank : splitInto line = []) :
    feed env session line = session := by
  simp [feed, blank]

end CliSession

/-- The console over the program's menus. What they write and offer does not matter here. -/
def consoleMenus (env : CliEnv) (prompt : CliSession → Chars)
    (getCompletions : CliSession → Chars → List Chars) (output : CliSession → Chars → Chars) :
    ConsoleMenus CliSession where
  prompt := prompt
  getCompletions := getCompletions
  scanCmds session line := (session.feed env line, output session line,
    SplitText.splitInto line = ["exit".toList])

/-- The root menu of the program, with commands that write nothing. -/
def silentMenus : ConsoleMenus CliSession :=
  consoleMenus .silent (fun _ => "ad".toList) (fun _ _ => []) fun _ _ => []

end AutoDrop
