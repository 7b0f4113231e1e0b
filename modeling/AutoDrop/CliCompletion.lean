import AutoDrop.CliConfig
import AutoDrop.CliWords

/-!
The commands that a menu offers while a line is typed, and what the session makes of them:
`GetCompletions` and `GetCompletionRecursive` of cli.h beside `Exec` and `ScanCmds`.
-/

namespace AutoDrop

open SplitText

/-- A function has one conversion for each parameter, which can refuse its word. -/
inductive Command
  | menu (name : Chars) (enabled : Bool) (cmds : List Command)
  | function (name : Chars) (enabled : Bool) (converts : List (Chars → Bool))
  | freeform (name : Chars) (enabled : Bool)

/-- The command that took a line, and the words behind its name. -/
structure Hit where
  command : Command
  params : List Chars

def trimLeft (line : Chars) : Chars := line.dropWhile isSpace

namespace Command

def name : Command → Chars
  | menu name _ _ => name
  | function name _ _ => name
  | freeform name _ => name

def enabled : Command → Bool
  | menu _ enabled _ => enabled
  | function _ enabled _ => enabled
  | freeform _ enabled => enabled

mutual

def exec : Command → List Chars → Option Hit
  | menu name enabled cmds, words =>
      if enabled = false then none
      else if words.head? = some name then
        if words.length = 1 then some ⟨menu name enabled cmds, []⟩ else execFirst cmds words.tail
      else none
  | function name enabled converts, words =>
      if enabled = false then none
      else if words.length ≠ converts.length + 1 then none
      else if words.head? = some name then
        if (List.zipWith (fun convert word => convert word) converts words.tail).all id then
          some ⟨function name enabled converts, words.tail⟩
        else none
      else none
  | freeform name enabled, words =>
      if enabled = false then none
      else if words.head? = some name then some ⟨freeform name enabled, words.tail⟩
      else none

def execFirst : List Command → List Chars → Option Hit
  | [], _ => none
  | command :: others, words => (exec command words).or (execFirst others words)

end

/-- `Command::GetCompletionRecursive`, which the menus override. -/
def ownCompletion (command : Command) (line : Chars) : List Chars :=
  if command.enabled = false then []
  else if line.isPrefixOf command.name then [command.name] else []

mutual

def getCompletionRecursive : Command → Chars → List Chars
  | menu name enabled cmds, line =>
      if name.isPrefixOf line then
        (completions cmds (trimLeft (line.drop name.length))).map fun rest => name ++ ' ' :: rest
      else ownCompletion (menu name enabled cmds) line
  | function name enabled converts, line => ownCompletion (function name enabled converts) line
  | freeform name enabled, line => ownCompletion (freeform name enabled) line

def completions : List Command → Chars → List Chars
  | [], _ => []
  | command :: others, line => getCompletionRecursive command line ++ completions others line

end

end Command

/-- The menus as a session sees them: the current one, and the menus around it. -/
structure MenuScope where
  globalCmds : List Command
  enabled : Bool
  cmds : List Command
  parent : Option Command

/-- The order of `std::string`. -/
def textLess (first second : Chars) : Bool :=
  first.lex second fun c d => Nat.blt c.toNat d.toNat

/-- Neighbours that are equal become one. -/
def unique : List Chars → List Chars
  | [] => []
  | [line] => [line]
  | line :: next :: rest =>
      if line = next then unique (next :: rest) else line :: unique (next :: rest)

namespace MenuScope

def scanCmds (scope : MenuScope) (words : List Chars) : Option Hit :=
  if scope.enabled = false then none
  else (Command.execFirst scope.cmds words).or (scope.parent.bind fun parent => parent.exec words)

/-- The command that `Feed` finds for the words of a line. -/
def find (scope : MenuScope) (words : List Chars) : Option Hit :=
  (Command.execFirst scope.globalCmds words).or (scope.scanCmds words)

def menuCompletions (scope : MenuScope) (line : Chars) : List Chars :=
  Command.completions scope.cmds line ++
    (scope.parent.map fun parent => parent.getCompletionRecursive line).getD []

def getCompletions (scope : MenuScope) (currentLine : Chars) : List Chars :=
  let line := trimLeft currentLine
  unique ((Command.completions scope.globalCmds line ++ scope.menuCompletions line).mergeSort
    fun first second => !textLess second first)

end MenuScope

theorem mem_unique {lines : List Chars} {line : Chars} : line ∈ unique lines ↔ line ∈ lines := by
  induction lines using unique.induct with
  | case1 => simp [unique]
  | case2 other => simp [unique]
  | case3 other rest ih => simp [unique, ih]
  | case4 other next rest differ ih => simp [unique, differ, ih]

theorem MenuScope.mem_getCompletions {scope : MenuScope} {currentLine offered : Chars} :
    offered ∈ scope.getCompletions currentLine ↔
      offered ∈ Command.completions scope.globalCmds (trimLeft currentLine) ∨
      offered ∈ scope.menuCompletions (trimLeft currentLine) := by
  rw [getCompletions, mem_unique, List.mem_mergeSort, List.mem_append]

def Unspaced (name : Chars) : Prop := ∀ c ∈ name, isSpace c = false

instance (name : Chars) : Decidable (Unspaced name) := List.decidableBAll _ name

/-- A name that the splitter returns as it is, and that has no space in it. -/
def NameWord (name : Chars) : Prop := Plain name ∧ Unspaced name

instance (name : Chars) : Decidable (NameWord name) := inferInstanceAs (Decidable (_ ∧ _))

/-- What a line says without its spaces. -/
def solid (line : Chars) : Chars := line.filter fun c => !isSpace c

theorem solid_append (first second : Chars) :
    solid (first ++ second) = solid first ++ solid second :=
  List.filter_append _ _

theorem solid_trimLeft (line : Chars) : solid (trimLeft line) = solid line := by
  induction line with
  | nil => rfl
  | cons c line ih =>
      cases space : isSpace c with
      | true => simpa [trimLeft, solid, space] using ih
      | false => simp [trimLeft, space]

namespace Command

mutual

/-- Enabled throughout, and no command needs a parameter. -/
def Runnable : Command → Prop
  | menu name enabled cmds => NameWord name ∧ enabled = true ∧ AllRunnable cmds
  | function name enabled converts => NameWord name ∧ enabled = true ∧ converts = []
  | freeform name enabled => NameWord name ∧ enabled = true

def AllRunnable : List Command → Prop
  | [] => True
  | command :: others => Runnable command ∧ AllRunnable others

end

/-- The words of a completion, which run what they were offered for. -/
structure Offers (runs : List Chars → Option Hit) (line offered : Chars) (words : List Chars) :
    Prop where
  printed : ' ' :: offered = printWords words
  plain : ∀ word ∈ words, Plain word
  found : (runs words).isSome
  kept : solid line <+: solid offered

variable {line offered : Chars} {words : List Chars}

theorem offers_own {command : Command} (named : NameWord command.name)
    (found : (command.exec [command.name]).isSome)
    (member : offered ∈ command.ownCompletion line) :
    Offers command.exec line offered [command.name] := by
  simp only [ownCompletion] at member
  split at member
  · simp at member
  split at member
  · rename_i front
    obtain rfl : offered = command.name := List.mem_singleton.mp member
    refine ⟨by simp [printWords], fun word listed => ?_, found, ?_⟩
    · rw [List.mem_singleton.mp listed]
      exact named.1
    · exact (List.isPrefixOf_iff_prefix.mp front).filter _
  · simp at member

theorem Offers.words_ne_nil {runs : List Chars → Option Hit}
    (offers : Offers runs line offered words) :
    words ≠ [] := by
  rintro rfl
  simpa [printWords] using offers.printed

theorem Offers.inMenu {name rest tail : Chars} {cmds : List Command} (plain : Plain name)
    (offers : Offers (execFirst cmds) (trimLeft tail) rest words) :
    Offers (exec (menu name true cmds)) (name ++ tail) (name ++ ' ' :: rest) (name :: words) := by
  have printed := offers.printed
  refine ⟨?_, ?_, ?_, ?_⟩
  · rw [printed]
    simp [printWords]
  · intro word listed
    rcases List.mem_cons.mp listed with rfl | other
    · exact plain
    · exact offers.plain word other
  · have several : words ≠ [] := offers.words_ne_nil
    simpa [exec, several] using offers.found
  · have kept := offers.kept
    rw [solid_trimLeft] at kept
    have space : solid (' ' :: rest) = solid rest := by simp [solid, isSpace]
    rw [solid_append, solid_append, space]
    exact (List.prefix_append_right_inj _).mpr kept

mutual

theorem offers_getCompletionRecursive : ∀ (command : Command), command.Runnable →
    ∀ {line offered : Chars}, offered ∈ command.getCompletionRecursive line →
    ∃ words, Offers command.exec line offered words
  | menu name enabled cmds, runnable, line, offered, member => by
      obtain ⟨named, rfl, all⟩ := runnable
      simp only [getCompletionRecursive] at member
      split at member
      · rename_i front
        obtain ⟨tail, rfl⟩ := List.isPrefixOf_iff_prefix.mp front
        obtain ⟨rest, listed, rfl⟩ := List.mem_map.mp member
        rw [List.drop_left] at listed
        obtain ⟨words, offers⟩ := offers_completions cmds all listed
        exact ⟨name :: words, offers.inMenu named.1⟩
      · exact ⟨_, offers_own named (by simp [exec, Command.name]) member⟩
  | function name enabled converts, runnable, line, offered, member => by
      obtain ⟨named, rfl, rfl⟩ := runnable
      exact ⟨_, offers_own named (by simp [exec, Command.name]) member⟩
  | freeform name enabled, runnable, line, offered, member => by
      obtain ⟨named, rfl⟩ := runnable
      exact ⟨_, offers_own named (by simp [exec, Command.name]) member⟩

theorem offers_completions : ∀ (cmds : List Command), AllRunnable cmds →
    ∀ {line offered : Chars}, offered ∈ completions cmds line →
    ∃ words, Offers (execFirst cmds) line offered words
  | [], _, line, offered, member => by simp [completions] at member
  | command :: others, runnable, line, offered, member => by
      obtain ⟨first, rest⟩ := runnable
      rw [completions, List.mem_append] at member
      rcases member with here | later
      · obtain ⟨words, offers⟩ := offers_getCompletionRecursive command first here
        exact ⟨words, offers.printed, offers.plain, by simp [execFirst, offers.found], offers.kept⟩
      · obtain ⟨words, offers⟩ := offers_completions others rest later
        exact ⟨words, offers.printed, offers.plain, by simp [execFirst, offers.found], offers.kept⟩

end

end Command

namespace MenuScope

structure Runnable (scope : MenuScope) : Prop where
  globalCmds : Command.AllRunnable scope.globalCmds
  enabled : scope.enabled = true
  cmds : Command.AllRunnable scope.cmds
  parent : ∀ parent, scope.parent = some parent → parent.Runnable

/-- Whatever the tab key offers is a command that the session then finds, and keeps what was
typed. -/
theorem completion_runs {scope : MenuScope} (runnable : scope.Runnable) {line offered : Chars}
    (member : offered ∈ scope.getCompletions line) :
    (scope.find (splitInto offered)).isSome ∧ solid line <+: solid offered := by
  have found : ∃ words, Command.Offers scope.find (trimLeft line) offered words := by
    rw [mem_getCompletions, menuCompletions, List.mem_append] at member
    rcases member with everywhere | here | outside
    · obtain ⟨words, offers⟩ := Command.offers_completions _ runnable.globalCmds everywhere
      exact ⟨words, offers.printed, offers.plain, by simp [find, offers.found], offers.kept⟩
    · obtain ⟨words, offers⟩ := Command.offers_completions _ runnable.cmds here
      refine ⟨words, offers.printed, offers.plain, ?_, offers.kept⟩
      simp [find, scanCmds, runnable.enabled, offers.found]
    · cases parent : scope.parent with
      | none => simp [parent] at outside
      | some menu =>
          rw [parent, Option.map_some, Option.getD_some] at outside
          obtain ⟨words, offers⟩ :=
            Command.offers_getCompletionRecursive menu (runnable.parent menu parent) outside
          refine ⟨words, offers.printed, offers.plain, ?_, offers.kept⟩
          simp [find, scanCmds, runnable.enabled, parent, offers.found]
  obtain ⟨words, offers⟩ := found
  have split : splitInto offered = words := by
    have printed := splitInto_printWords offers.plain (.inl rfl : Spaced [])
    rw [List.append_nil, ← offers.printed, splitInto_blank rfl] at printed
    simpa [splitInto_nil] using printed
  rw [split]
  exact ⟨offers.found, solid_trimLeft line ▸ offers.kept⟩

def exitScope : MenuScope := ⟨[.function "exit".toList true []], true, [], none⟩

theorem completion_runs_exit :
    (exitScope.find (splitInto "exit".toList)).isSome ∧
      solid "e".toList <+: solid "exit".toList := by
  have runnable : exitScope.Runnable :=
    ⟨⟨⟨⟨by decide, by decide⟩, rfl, rfl⟩, trivial⟩, rfl, trivial, fun _ none => nomatch none⟩
  have member : "exit".toList ∈ Command.completions exitScope.globalCmds "e".toList := by decide
  exact completion_runs runnable (mem_getCompletions.mpr (.inl member))

end MenuScope

/-- A command below a list of commands, behind the names of the menus on the way. -/
inductive Below : List Command → List Chars → Command → Prop
  | here {cmds : List Command} {command : Command} (listed : command ∈ cmds)
      (named : NameWord command.name) : Below cmds [] command
  | inside {cmds inner : List Command} {name : Chars} {enabled : Bool} {path : List Chars}
      {command : Command} (listed : .menu name enabled inner ∈ cmds) (named : NameWord name)
      (rest : Below inner path command) : Below cmds (name :: path) command

def unwords (words : List Chars) : Chars := (printWords words).drop 1

def Command.IsMenu : Command → Prop
  | .menu _ _ _ => True
  | _ => False

namespace Command

theorem completions_mono {cmds : List Command} {command : Command} {line offered : Chars}
    (listed : command ∈ cmds) (member : offered ∈ command.getCompletionRecursive line) :
    offered ∈ completions cmds line := by
  induction cmds with
  | nil => simp at listed
  | cons first others ih =>
      rw [completions, List.mem_append]
      rcases List.mem_cons.mp listed with rfl | later
      · exact .inl member
      · exact .inr (ih later)

theorem mem_getCompletionRecursive {command : Command} (enabled : command.enabled = true)
    {typed : Chars} (front : typed <+: command.name)
    (partly : command.IsMenu → typed ≠ command.name) :
    command.name ∈ command.getCompletionRecursive typed := by
  have own : command.name ∈ command.ownCompletion typed := by
    simp [ownCompletion, enabled, List.isPrefixOf_iff_prefix.mpr front]
  cases command with
  | function name enabled converts => simpa [getCompletionRecursive] using own
  | freeform name enabled => simpa [getCompletionRecursive] using own
  | menu name enabled cmds =>
      have short : ¬name <+: typed := by
        intro whole
        exact partly trivial (front.eq_of_length_le whole.length_le)
      simpa [getCompletionRecursive, short] using own

theorem unwords_cons (word : Chars) (words : List Chars) :
    unwords (word :: words) = word ++ printWords words := by
  simp [unwords, printWords]

theorem printWords_eq {words : List Chars} (several : words ≠ []) :
    printWords words = ' ' :: unwords words := by
  cases words with
  | nil => exact absurd rfl several
  | cons word words => simp [unwords, printWords]

theorem trimLeft_of_head {line : Chars} (solid : ∀ c ∈ line.head?, isSpace c = false) :
    trimLeft line = line := by
  cases line with
  | nil => rfl
  | cons c line => simp [trimLeft, solid c rfl]

theorem head_of_nameWord {name : Chars} (named : NameWord name) :
    name ≠ [] ∧ ∀ c ∈ name.head?, isSpace c = false :=
  ⟨named.1.1, fun c head => named.2 c (List.mem_of_mem_head? head)⟩

theorem completions_below {cmds : List Command} {path : List Chars} {command : Command}
    (below : Below cmds path command) (enabled : command.enabled = true) {typed : Chars}
    (front : typed <+: command.name) (partly : command.IsMenu → typed ≠ command.name) :
    unwords (path ++ [command.name]) ∈ completions cmds (unwords (path ++ [typed])) ∧
      ∀ c ∈ (unwords (path ++ [typed])).head?, isSpace c = false := by
  induction below with
  | here listed named =>
      have whole := mem_getCompletionRecursive enabled front partly
      refine ⟨by simpa [unwords_cons, printWords] using completions_mono listed whole, ?_⟩
      intro c head
      have first := by simpa [unwords_cons, printWords] using head
      have inName := front.subset (List.mem_of_mem_head? first)
      exact named.2 c inName
  | @inside cmds inner name menuEnabled path command listed named rest ih =>
      obtain ⟨member, solid⟩ := ih enabled front partly
      have several : ∀ last : Chars, path ++ [last] ≠ [] := by simp
      have line : ∀ last : Chars, unwords (name :: path ++ [last]) =
          name ++ ' ' :: unwords (path ++ [last]) := by
        intro last
        rw [List.cons_append, unwords_cons, printWords_eq (several last)]
      refine ⟨?_, ?_⟩
      · rw [line, line]
        apply completions_mono listed
        have trimmed : trimLeft (' ' :: unwords (path ++ [typed])) = unwords (path ++ [typed]) :=
          (trimLeft_of_head solid)
        rw [getCompletionRecursive, if_pos (by simp), List.drop_left, trimmed]
        exact List.mem_map_of_mem member
      · rw [line]
        intro c head
        obtain ⟨nonempty, first⟩ := head_of_nameWord named
        rw [List.head?_append_of_ne_nil _ nonempty] at head
        exact first c head

end Command

/-- Every enabled command of the current menu and of the menus in it is offered for every
beginning of its name behind the names of its menus. -/
theorem MenuScope.completion_offered {scope : MenuScope} {path : List Chars} {command : Command}
    (below : Below scope.cmds path command) (enabled : command.enabled = true) {typed : Chars}
    (front : typed <+: command.name) (partly : command.IsMenu → typed ≠ command.name) :
    unwords (path ++ [command.name]) ∈ scope.getCompletions (unwords (path ++ [typed])) := by
  obtain ⟨member, solid⟩ := Command.completions_below below enabled front partly
  rw [mem_getCompletions, Command.trimLeft_of_head solid, menuCompletions, List.mem_append]
  exact .inr (.inl member)

def deviceMenu : Command := .menu "device".toList true [.freeform "add_device".toList true]

def deviceScope : MenuScope := ⟨[], true, [deviceMenu], none⟩

theorem below_addDevice :
    Below deviceScope.cmds ["device".toList] (.freeform "add_device".toList true) :=
  .inside (List.mem_singleton.mpr rfl) ⟨by decide, by decide⟩
    (.here (List.mem_singleton.mpr rfl) ⟨by decide, by decide⟩)

theorem completion_offered_addDevice :
    unwords (["device".toList] ++ ["add_device".toList]) ∈
      deviceScope.getCompletions (unwords (["device".toList] ++ ["add".toList])) :=
  MenuScope.completion_offered below_addDevice rfl ⟨"_device".toList, rfl⟩ (fun menu => menu.elim)

/-! What several completions have in common. -/

/-- The first of the shortest strings. -/
def minElement : List Chars → Option Chars
  | [] => none
  | first :: rest =>
      some (rest.foldl (fun smin x => if x.length < smin.length then x else smin) first)

/-- The loop over the characters of the shortest string, from `index` on. -/
def commonFrom (v : List Chars) : Nat → Chars → Chars
  | _, [] => []
  | index, c :: rest =>
      if v.all fun x => x[index]? = some c then c :: commonFrom v (index + 1) rest else []

/-- `CommonPrefix`, which asserts that there is a string. -/
def commonPrefix (v : List Chars) : Option Chars :=
  (minElement v).map fun smin => commonFrom v 0 smin

theorem minElement_mem {v : List Chars} {smin : Chars} (least : minElement v = some smin) :
    smin ∈ v := by
  cases v with
  | nil => simp [minElement] at least
  | cons first rest =>
      obtain rfl := Option.some.inj least
      clear least
      induction rest generalizing first with
      | nil => exact List.mem_singleton.mpr rfl
      | cons second rest ih =>
          rw [List.foldl_cons]
          split
          · exact List.mem_cons_of_mem _ (ih second)
          · rcases List.mem_cons.mp (ih first) with same | later
            · rw [same]
              exact List.mem_cons_self
            · exact List.mem_cons_of_mem _ (List.mem_cons_of_mem _ later)

theorem commonFrom_prefix {v : List Chars} {x : Chars} (member : x ∈ v) (front rest : Chars)
    (shared : front <+: x) : front ++ commonFrom v front.length rest <+: x := by
  induction rest generalizing front with
  | nil => simpa [commonFrom] using shared
  | cons c rest ih =>
      rw [commonFrom]
      split
      · rename_i equal
        obtain ⟨behind, rfl⟩ := shared
        have here : (front ++ behind)[front.length]? = some c := by
          simpa using List.all_eq_true.mp equal _ member
        rw [List.getElem?_append_right (Nat.le_refl _), Nat.sub_self] at here
        cases behind with
        | nil => simp at here
        | cons d behind =>
            obtain rfl : d = c := by simpa using here
            have later := ih (front ++ [d]) ⟨behind, by simp⟩
            simpa using later
      · simpa using shared

theorem prefix_commonFrom {v : List Chars} {front more rest : Chars}
    (shared : ∀ x ∈ v, front ++ more <+: x) (within : more <+: rest) :
    more <+: commonFrom v front.length rest := by
  induction more generalizing front rest with
  | nil => exact List.nil_prefix
  | cons c more ih =>
      obtain ⟨behind, rfl⟩ := within
      have all : (v.all fun x => x[front.length]? = some c) = true := by
        apply List.all_eq_true.mpr
        intro x member
        obtain ⟨tail, rfl⟩ := shared x member
        simp
      rw [List.cons_append, commonFrom, if_pos all]
      have next : ∀ x ∈ v, (front ++ [c]) ++ more <+: x := by simpa using shared
      have later := ih next (List.prefix_append more behind)
      rw [List.length_append, List.length_singleton] at later
      exact (List.prefix_cons_inj c).mpr later

/-- Of the strings that all begin with it, the longest is the answer. -/
theorem prefix_commonPrefix {v : List Chars} {common text : Chars}
    (answer : commonPrefix v = some common) : text <+: common ↔ ∀ x ∈ v, text <+: x := by
  obtain ⟨smin, least, rfl⟩ := Option.map_eq_some_iff.mp answer
  constructor
  · intro front x member
    have below := commonFrom_prefix member [] smin List.nil_prefix
    exact front.trans (by simpa using below)
  · intro shared
    have below : ∀ x ∈ v, [] ++ text <+: x := by simpa using shared
    exact prefix_commonFrom below (shared smin (minElement_mem least))

theorem commonPrefix_of_mem {v : List Chars} {x : Chars} (member : x ∈ v) :
    ∃ common, commonPrefix v = some common ∧ common <+: x := by
  cases v with
  | nil => simp at member
  | cons first rest =>
      have answer : commonPrefix (first :: rest) = some _ := rfl
      exact ⟨_, answer, (prefix_commonPrefix answer).mp (List.prefix_refl _) x member⟩

end AutoDrop
