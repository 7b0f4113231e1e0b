import AutoDrop.CliSplit
import AutoDrop.FileTree
import AutoDrop.LabelledRun
import Mathlib.Algebra.Ring.Nat

/-!
The log files of the days. A record goes to the file behind the link `ad_log.log`, which
`output_log` makes together with the file of a day. A path is the list of its components.
-/

namespace AutoDrop

open FileTree LabelledRun

/-- A call of `output_log`, with the date and the process number that it reads. -/
structure LogCall where
  todayDate : Chars
  selfPid : Chars
  content : Chars

namespace LogCall

def record (call : LogCall) : Chars :=
  "[".toList ++ call.selfPid ++ "]".toList ++ call.content

end LogCall

namespace DailyLog

def logDir : List Chars := ["var".toList, "ad_log".toList]

def logFile (date : Chars) : List Chars := logDir ++ ["log_".toList ++ date ++ ".log".toList]

def symlinkPath : List Chars := logDir ++ ["ad_log.log".toList]

def firstLine (date : Chars) : Chars := "log file created at ".toList ++ date

def createDirectories (tree : Tree Chars Chars) (path : List Chars) : Tree Chars Chars :=
  path.inits.tail.foldl mkdir tree

def outputLog (tree : Tree Chars Chars) (call : LogCall) : Tree Chars Chars :=
  let tree :=
    if readable tree (logFile call.todayDate) then tree
    else
      let tree := createDirectories tree logDir
      let tree := store tree (logFile call.todayDate) [firstLine call.todayDate]
      symlink tree (logFile call.todayDate) symlinkPath
  append tree symlinkPath call.record

/-- The directory of the logs, which may be absent, holds files and a link to one of them. -/
structure LogDirectory (tree : Tree Chars Chars) : Prop where
  var : tree ["var".toList] = none ∨ tree ["var".toList] = some .directory
  logDir : tree logDir = none ∨ tree logDir = some .directory
  logFile : ∀ date, tree (logFile date) = none ∨ ∃ lines, tree (logFile date) = some (.file lines)
  link : tree symlinkPath = none ∨ (∃ lines, tree symlinkPath = some (.file lines)) ∨
    ∃ date, tree symlinkPath = some (.symlink (DailyLog.logFile date))

/-- The record is appended to the file of its date, and the link points at that file. -/
def Recorded (tree : Tree Chars Chars) (call : LogCall) : Prop :=
  outputLog tree call symlinkPath = some (.symlink (logFile call.todayDate)) ∧
    ∃ lines, (tree (logFile call.todayDate) = some (.file lines) ∨
        tree (logFile call.todayDate) = none ∧ lines = [firstLine call.todayDate]) ∧
      outputLog tree call (logFile call.todayDate) = some (.file (lines ++ [call.record]))

/-- The link points at the file of the date, or there is neither a link nor this file. -/
def LinkReady (tree : Tree Chars Chars) (date : Chars) : Prop :=
  tree symlinkPath = some (.symlink (logFile date)) ∨
    tree symlinkPath = none ∧ tree (logFile date) = none

def OneDay (tree : Tree Chars Chars) : List LogCall → Prop
  | [] => True
  | call :: rest =>
      LinkReady tree call.todayDate ∧ ∀ later ∈ rest, later.todayDate = call.todayDate

def step (tree : Tree Chars Chars) (call : LogCall) : Option (Tree Chars Chars) :=
  some (outputLog tree call)

theorem logFile_inj {date other : Chars} (same : logFile date = logFile other) : date = other := by
  have names := List.append_cancel_left same
  simpa using names

theorem logFile_ne_symlinkPath (date : Chars) : logFile date ≠ symlinkPath := by
  intro same
  have names := List.append_cancel_left same
  simp at names

/-- The paths that hold files. -/
def Inside (path : List Chars) : Prop := path = symlinkPath ∨ ∃ date, path = logFile date

theorem Inside.length {path : List Chars} (inside : Inside path) : path.length = 3 := by
  rcases inside with rfl | ⟨date, rfl⟩
  · rfl
  · rfl

theorem Inside.ne {path other : List Chars} (inside : Inside path) (shorter : other.length ≠ 3) :
    other ≠ path := by
  rintro rfl
  exact shorter inside.length

theorem Inside.ne_var {path : List Chars} (inside : Inside path) : ["var".toList] ≠ path :=
  inside.ne (by decide)

theorem Inside.ne_logDir {path : List Chars} (inside : Inside path) : DailyLog.logDir ≠ path :=
  inside.ne (by decide)

theorem Inside.dropLast {path : List Chars} (inside : Inside path) :
    path.dropLast = DailyLog.logDir := by
  rcases inside with rfl | ⟨date, rfl⟩
  · rfl
  · rfl

variable {tree : Tree Chars Chars} {path : List Chars} {date : Chars}

namespace LogDirectory

theorem update_file (directory : LogDirectory tree) (inside : Inside path) (lines : List Chars) :
    LogDirectory (Function.update tree path (some (.file lines))) := by
  constructor
  · rw [Function.update_of_ne inside.ne_var]
    exact directory.var
  · rw [Function.update_of_ne inside.ne_logDir]
    exact directory.logDir
  · intro date
    by_cases here : DailyLog.logFile date = path
    · rw [here, Function.update_self]
      exact .inr ⟨lines, rfl⟩
    · rw [Function.update_of_ne here]
      exact directory.logFile date
  · by_cases here : symlinkPath = path
    · rw [here, Function.update_self]
      exact .inr (.inl ⟨lines, rfl⟩)
    · rw [Function.update_of_ne here]
      exact directory.link

theorem update_link (directory : LogDirectory tree) (date : Chars) :
    LogDirectory (Function.update tree symlinkPath (some (.symlink (DailyLog.logFile date)))) := by
  have inside : Inside symlinkPath := .inl rfl
  constructor
  · rw [Function.update_of_ne inside.ne_var]
    exact directory.var
  · rw [Function.update_of_ne inside.ne_logDir]
    exact directory.logDir
  · intro other
    rw [Function.update_of_ne (logFile_ne_symlinkPath other)]
    exact directory.logFile other
  · rw [Function.update_self]
    exact .inr (.inr ⟨date, rfl⟩)

theorem resolve_inside (directory : LogDirectory tree) (inside : Inside path) :
    Inside (resolve tree path) := by
  rcases inside with rfl | ⟨date, rfl⟩
  · rcases directory.link with absent | ⟨lines, found⟩ | ⟨date, linked⟩
    · rw [resolve_of_none absent]
      exact .inl rfl
    · rw [resolve_of_file found]
      exact .inl rfl
    · rw [resolve_of_symlink linked]
      exact .inr ⟨date, rfl⟩
  · rcases directory.logFile date with absent | ⟨lines, found⟩
    · rw [resolve_of_none absent]
      exact .inr ⟨date, rfl⟩
    · rw [resolve_of_file found]
      exact .inr ⟨date, rfl⟩

theorem edit (directory : LogDirectory tree) (inside : Inside path)
    (change : List Chars → List Chars) : LogDirectory (edit tree path change) := by
  rcases edit_cases tree path change with same | ⟨-, lines, changed⟩
  · rwa [same]
  · rw [changed]
    exact directory.update_file (directory.resolve_inside inside) lines

theorem createDirectories (directory : LogDirectory tree) :
    DailyLog.createDirectories tree DailyLog.logDir DailyLog.logDir = some .directory ∧
      (∀ path, Inside path →
        DailyLog.createDirectories tree DailyLog.logDir path = tree path) ∧
      LogDirectory (DailyLog.createDirectories tree DailyLog.logDir) := by
  have made : DailyLog.createDirectories tree DailyLog.logDir =
      mkdir (mkdir tree ["var".toList]) DailyLog.logDir := rfl
  have apart : DailyLog.logDir ≠ ["var".toList] := by decide
  have var : mkdir tree ["var".toList] ["var".toList] = some .directory :=
    mkdir_self directory.var rfl
  have logDir : mkdir (mkdir tree ["var".toList]) DailyLog.logDir DailyLog.logDir =
      some .directory := by
    apply mkdir_self
    · rw [mkdir_other apart]
      exact directory.logDir
    · exact isDirectory_of_some var
  have others (path : List Chars) (inside : Inside path) :
      mkdir (mkdir tree ["var".toList]) DailyLog.logDir path = tree path := by
    rw [mkdir_other (Ne.symm inside.ne_logDir), mkdir_other (Ne.symm inside.ne_var)]
  rw [made]
  refine ⟨logDir, others, ?_, .inr logDir, fun date => ?_, ?_⟩
  · rw [mkdir_other (Ne.symm apart)]
    exact .inr var
  · rw [others _ (.inr ⟨date, rfl⟩)]
    exact directory.logFile date
  · rw [others _ (.inl rfl)]
    exact directory.link

end LogDirectory

/-- What `output_log` does before it appends. -/
def openDay (tree : Tree Chars Chars) (date : Chars) : Tree Chars Chars :=
  if readable tree (logFile date) then tree
  else symlink (store (createDirectories tree logDir) (logFile date) [firstLine date])
    (logFile date) symlinkPath

theorem outputLog_eq (tree : Tree Chars Chars) (call : LogCall) :
    outputLog tree call = append (openDay tree call.todayDate) symlinkPath call.record := rfl

theorem openDay_of_file {lines : List Chars} (found : tree (logFile date) = some (.file lines)) :
    openDay tree date = tree := by
  have opens : readable tree (logFile date) = true := by
    rw [readable, resolve_of_file found, found]
  exact if_pos opens

def newDay (tree : Tree Chars Chars) (date : Chars) : Tree Chars Chars :=
  Function.update (createDirectories tree logDir) (logFile date) (some (.file [firstLine date]))

theorem newDay_symlinkPath (directory : LogDirectory tree) (date : Chars) :
    newDay tree date symlinkPath = tree symlinkPath := by
  obtain ⟨-, others, -⟩ := directory.createDirectories
  rw [newDay, Function.update_of_ne (Ne.symm (logFile_ne_symlinkPath date)), others _ (.inl rfl)]

theorem store_newDay (directory : LogDirectory tree) (absent : tree (logFile date) = none) :
    store (createDirectories tree logDir) (logFile date) [firstLine date] = newDay tree date := by
  have inside : Inside (logFile date) := .inr ⟨date, rfl⟩
  obtain ⟨made, others, -⟩ := directory.createDirectories
  have still : createDirectories tree logDir (logFile date) = none := by
    rw [others _ inside, absent]
  have here := resolve_of_none still
  rw [store, edit_of_none (by rw [here, still]), here, newDay]
  rw [here, inside.dropLast]
  exact isDirectory_of_some made

theorem openDay_of_none (directory : LogDirectory tree) (absent : tree (logFile date) = none) :
    tree symlinkPath = none ∧ openDay tree date =
        Function.update (newDay tree date) symlinkPath (some (.symlink (logFile date))) ∨
      tree symlinkPath ≠ none ∧ openDay tree date = newDay tree date := by
  have fails : ¬readable tree (logFile date) = true := by
    simp [readable, resolve_of_none absent, absent]
  rw [openDay, if_neg fails, store_newDay directory absent]
  by_cases unlinked : tree symlinkPath = none
  · refine .inl ⟨unlinked, symlink_of_none ?_ ?_⟩
    · rw [newDay_symlinkPath directory, unlinked]
    · obtain ⟨made, -, -⟩ := directory.createDirectories
      have inside : Inside (logFile date) := .inr ⟨date, rfl⟩
      apply isDirectory_of_some
      rw [Inside.dropLast (.inl rfl), newDay, Function.update_of_ne inside.ne_logDir, made]
  · refine .inr ⟨unlinked, symlink_of_some ?_⟩
    rwa [newDay_symlinkPath directory]

theorem LogDirectory.newDay (directory : LogDirectory tree) (date : Chars) :
    LogDirectory (newDay tree date) :=
  directory.createDirectories.2.2.update_file (.inr ⟨date, rfl⟩) _

theorem LogDirectory.openDay (directory : LogDirectory tree) (date : Chars) :
    LogDirectory (openDay tree date) := by
  rcases directory.logFile date with absent | ⟨lines, found⟩
  · rcases openDay_of_none directory absent with ⟨-, opened⟩ | ⟨-, opened⟩
    · rw [opened]
      exact (directory.newDay date).update_link date
    · rw [opened]
      exact directory.newDay date
  · rwa [openDay_of_file found]

theorem openDay_file (directory : LogDirectory tree) (date : Chars) :
    ∃ lines, (tree (logFile date) = some (.file lines) ∨
        tree (logFile date) = none ∧ lines = [firstLine date]) ∧
      openDay tree date (logFile date) = some (.file lines) := by
  rcases directory.logFile date with absent | ⟨lines, found⟩
  · refine ⟨[firstLine date], .inr ⟨absent, rfl⟩, ?_⟩
    rcases openDay_of_none directory absent with ⟨-, opened⟩ | ⟨-, opened⟩
    · rw [opened, Function.update_of_ne (logFile_ne_symlinkPath date), newDay,
        Function.update_self]
    · rw [opened, newDay, Function.update_self]
  · refine ⟨lines, .inl found, ?_⟩
    rw [openDay_of_file found, found]

/-- The link is made only together with the file, where there was none. -/
theorem openDay_link_iff (directory : LogDirectory tree) (date : Chars) :
    openDay tree date symlinkPath = some (.symlink (logFile date)) ↔ LinkReady tree date := by
  rcases directory.logFile date with absent | ⟨lines, found⟩
  · rcases openDay_of_none directory absent with ⟨unlinked, opened⟩ | ⟨linked, opened⟩
    · rw [opened, Function.update_self]
      exact iff_of_true rfl (.inr ⟨unlinked, absent⟩)
    · rw [opened, newDay_symlinkPath directory]
      exact (or_iff_left fun free => linked free.1).symm
  · rw [openDay_of_file found]
    exact (or_iff_left fun free => by simp [found] at free).symm

theorem LogDirectory.outputLog (directory : LogDirectory tree) (call : LogCall) :
    LogDirectory (outputLog tree call) := by
  rw [outputLog_eq]
  exact (directory.openDay call.todayDate).edit (.inl rfl) _

theorem append_linked {lines : List Chars}
    (linked : tree symlinkPath = some (.symlink (logFile date)))
    (found : tree (logFile date) = some (.file lines)) (line : Chars) :
    append tree symlinkPath line (logFile date) = some (.file (lines ++ [line])) := by
  have target := resolve_of_symlink linked
  rw [append, edit_of_file (by rw [target, found]), target, Function.update_self]

theorem recorded_iff (directory : LogDirectory tree) (call : LogCall) :
    Recorded tree call ↔ LinkReady tree call.todayDate := by
  rw [Recorded, outputLog_eq, ← openDay_link_iff directory]
  constructor
  · rintro ⟨linked, -⟩
    exact symlink_of_edit linked
  · intro linked
    obtain ⟨lines, before, opened⟩ := openDay_file directory call.todayDate
    exact ⟨edit_of_symlink linked, lines, before, append_linked linked opened call.record⟩

theorem outputLog_linked (directory : LogDirectory tree) {lines : List Chars}
    (linked : tree symlinkPath = some (.symlink (logFile date)))
    (found : tree (logFile date) = some (.file lines)) (call : LogCall) :
    outputLog tree call symlinkPath = some (.symlink (logFile date)) ∧
      outputLog tree call (logFile date) = some (.file (lines ++ [call.record])) := by
  have opened : openDay tree call.todayDate symlinkPath = some (.symlink (logFile date)) ∧
      openDay tree call.todayDate (logFile date) = some (.file lines) := by
    rcases directory.logFile call.todayDate with absent | ⟨others, there⟩
    · have different : logFile date ≠ logFile call.todayDate := by
        intro same
        rw [same, absent] at found
        cases found
      rcases openDay_of_none directory absent with ⟨unlinked, -⟩ | ⟨-, same⟩
      · rw [linked] at unlinked
        cases unlinked
      · obtain ⟨-, others, -⟩ := directory.createDirectories
        rw [same, newDay_symlinkPath directory, newDay, Function.update_of_ne different,
          others _ (.inr ⟨date, rfl⟩)]
        exact ⟨linked, found⟩
    · rw [openDay_of_file there]
      exact ⟨linked, found⟩
  rw [outputLog_eq]
  exact ⟨edit_of_symlink opened.1, append_linked opened.1 opened.2 call.record⟩

theorem linkReady_of_recorded {call : LogCall} (recorded : Recorded tree call) (date : Chars) :
    LinkReady (outputLog tree call) date ↔ date = call.todayDate := by
  constructor
  · rintro (linked | ⟨unlinked, -⟩)
    · rw [recorded.1] at linked
      exact (logFile_inj (Node.symlink.inj (Option.some.inj linked))).symm
    · rw [recorded.1] at unlinked
      cases unlinked
  · rintro rfl
    exact .inl recorded.1

theorem oneDay_behind {call : LogCall} (recorded : Recorded tree call) (rest : List LogCall) :
    OneDay (outputLog tree call) rest ↔ ∀ later ∈ rest, later.todayDate = call.todayDate := by
  cases rest with
  | nil => simp [OneDay]
  | cons next more =>
      rw [OneDay, linkReady_of_recorded recorded, List.forall_mem_cons]
      constructor
      · rintro ⟨same, later⟩
        exact ⟨same, fun other member => (later other member).trans same⟩
      · rintro ⟨same, later⟩
        exact ⟨same, fun other member => (later other member).trans same.symm⟩

/-- All records go to the files of their dates exactly if there is one date and its file is
the one that the link leads to, or neither exists yet. -/
theorem recorded_run_iff (tree : Tree Chars Chars) (directory : LogDirectory tree)
    (calls : List LogCall) : Meets step Recorded tree calls ↔ OneDay tree calls := by
  induction calls generalizing tree with
  | nil => exact Iff.rfl
  | cons call rest ih =>
      have onward := ih (outputLog tree call) (directory.outputLog call)
      constructor
      · rintro ⟨recorded, more⟩
        have later := onward.mp (more _ rfl)
        exact ⟨(recorded_iff directory call).mp recorded, (oneDay_behind recorded rest).mp later⟩
      · rintro ⟨ready, same⟩
        have recorded := (recorded_iff directory call).mpr ready
        exact Meets.cons rfl recorded (onward.mpr ((oneDay_behind recorded rest).mpr same))

def freshTree : Tree Chars Chars := fun _ => none

theorem freshTree_directory : LogDirectory freshTree :=
  ⟨.inl rfl, .inl rfl, fun _ => .inl rfl, .inl rfl⟩

def dayCall (date : String) : LogCall := ⟨date.toList, "7".toList, "start".toList⟩

theorem recorded_run_iff_oneDay :
    Meets step Recorded freshTree [dayCall "2025-06-01", dayCall "2025-06-01"] :=
  (recorded_run_iff freshTree freshTree_directory _).mpr
    ⟨.inr ⟨rfl, rfl⟩, by simp⟩

/-- The record of the second day goes to the file of the first. -/
theorem recorded_run_fails :
    LogDirectory freshTree ∧
      ¬Meets step Recorded freshTree [dayCall "2025-06-01", dayCall "2025-06-02"] ∧
      ∃ tree lines, exec step freshTree [dayCall "2025-06-01", dayCall "2025-06-02"] = some tree ∧
        tree symlinkPath = some (.symlink (logFile "2025-06-01".toList)) ∧
        tree (logFile "2025-06-01".toList) =
          some (.file (lines ++ [(dayCall "2025-06-02").record])) := by
  have ready : LinkReady freshTree "2025-06-01".toList := .inr ⟨rfl, rfl⟩
  have recorded : Recorded freshTree (dayCall "2025-06-01") :=
    (recorded_iff freshTree_directory _).mpr ready
  have directory := freshTree_directory.outputLog (dayCall "2025-06-01")
  refine ⟨freshTree_directory, ?_, ?_⟩
  · rintro ⟨-, more⟩
    have second := (recorded_iff directory _).mp (more _ rfl).1
    have same := (linkReady_of_recorded recorded _).mp second
    revert same
    decide
  · obtain ⟨linked, lines, -, found⟩ := recorded
    obtain ⟨still, appended⟩ := outputLog_linked directory linked found (dayCall "2025-06-02")
    exact ⟨_, _, rfl, still, appended⟩

end DailyLog

end AutoDrop
