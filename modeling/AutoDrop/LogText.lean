import AutoDrop.CStrings
import AutoDrop.StringSplit

/-!
A text on its way into the log: through `AD_LOGGER::log` with the format `%s`, which hands its
buffer on as a format, and through `print_log`, which takes the text for a format itself.
-/

namespace AutoDrop

inductive LogLevel
  | debug
  | info
  | error
deriving DecidableEq

def LogLevel.rank : LogLevel → Nat
  | .debug => 0
  | .info => 1
  | .error => 2

def levelToString : LogLevel → List UInt8
  | .debug => asciiBytes "DEBUG"
  | .info => asciiBytes "INFO"
  | .error => asciiBytes "ERROR"

/-- `ad_utils_split_string` at a line break. -/
def splitLines (str : List UInt8) : List (List UInt8) := str.splitOn 10

theorem splitString_newline (str : List UInt8) :
    StringSplit.splitString str.length str [10] = .ok (splitLines str) :=
  StringSplit.splitString_eq_splitOn str 10

/-- The process that logs: the global level, and the date and time that is read for each line
of a call. -/
structure LogProcess where
  globalLogLevel : LogLevel
  datetimeMs : Nat → List UInt8

namespace LogProcess

def logMessage (process : LogProcess) (moduleName : List UInt8) (level : LogLevel)
    (line : List UInt8 × Nat) : List UInt8 :=
  asciiBytes "[" ++ process.datetimeMs line.2 ++ asciiBytes "] [" ++ levelToString level ++
    asciiBytes "] [" ++ moduleName ++ asciiBytes "] " ++ line.1

def records (process : LogProcess) (moduleName : List UInt8) (level : LogLevel)
    (lines : List (List UInt8)) : List (List UInt8) :=
  lines.zipIdx.map (process.logMessage moduleName level)

/-- `log` with a level; the messages that it outputs. -/
def logAt (process : LogProcess) (moduleName : List UInt8) (level : LogLevel)
    (format : List UInt8) (args : List (List UInt8)) : Option (List (List UInt8)) :=
  if level.rank < process.globalLogLevel.rank then some []
  else (vsnprintf 1024 format args).map fun buffer =>
    process.records moduleName level (splitLines buffer)

/-- `log` without a level. -/
def log (process : LogProcess) (moduleName : List UInt8) (format : List UInt8)
    (args : List (List UInt8)) : Option (List (List UInt8)) :=
  (vsnprintf 1024 format args).bind fun buffer => process.logAt moduleName .info buffer []

def printLog (process : LogProcess) (text : List UInt8) : Option (List (List UInt8)) :=
  process.logAt (asciiBytes "LUA") .info text []

variable {process : LogProcess} {moduleName text : List UInt8} {level : LogLevel}

theorem logMessage_inj {line other : List UInt8} {i : Nat}
    (same : process.logMessage moduleName level (line, i) =
      process.logMessage moduleName level (other, i)) : line = other :=
  List.append_cancel_left same

theorem records_inj {lines others : List (List UInt8)}
    (same : process.records moduleName level lines = process.records moduleName level others) :
    lines = others := by
  apply List.ext_getElem?
  intro i
  have entry := congrArg (fun records => records[i]?) same
  simp only [records, List.getElem?_map, List.getElem?_zipIdx, Option.map_map] at entry
  exact Option.map_injective (fun _ _ equal => logMessage_inj equal) entry

theorem splitLines_inj {first second : List UInt8} (same : splitLines first = splitLines second) :
    first = second := by
  have joined := congrArg (List.intercalate [10]) same
  rwa [splitLines, splitLines, List.intercalate_splitOn, List.intercalate_splitOn] at joined

theorem vsnprintf_eq_iff (short : text.length ≤ 1023) :
    vsnprintf 1024 text [] = some text ↔ percent ∉ text ∧ 0 ∉ text := by
  constructor
  · intro written
    obtain ⟨out, done, cut⟩ := Option.map_eq_some_iff.mp written
    obtain ⟨bound, strict⟩ := length_formatted_nil done
    have length : text.length ≤ out.length := by
      rw [← cut]
      exact (List.take_prefix _ _).length_le
    have clean : 0 ∉ text := by
      intro dirty
      have shorter := length_cString_lt dirty
      omega
    rw [cString_of_clean clean] at strict
    exact ⟨fun found => absurd (strict found) (by omega), clean⟩
  · rintro ⟨plain, clean⟩
    rw [vsnprintf, cString_of_clean clean, formatted_of_plain plain, Option.map_some,
      List.take_of_length_le short]

theorem records_ne_nil (text : List UInt8) :
    process.records moduleName level (splitLines text) ≠ [] := by
  intro empty
  have length := congrArg List.length empty
  simp only [records, List.length_map, List.length_zipIdx, List.length_nil,
    List.length_eq_zero_iff] at length
  exact List.splitOn_ne_nil 10 text length

theorem logAt_eq_iff (short : text.length ≤ 1023) :
    process.logAt moduleName .info text [] =
        some (process.records moduleName .info (splitLines text)) ↔
      process.globalLogLevel ≠ .error ∧ percent ∉ text ∧ 0 ∉ text := by
  rw [← vsnprintf_eq_iff short]
  unfold logAt
  split
  · rename_i silenced
    constructor
    · intro recorded
      exact absurd (Option.some.inj recorded).symm (records_ne_nil text)
    · rintro ⟨enabled, -⟩
      cases global : process.globalLogLevel with
      | debug => simp [global, LogLevel.rank] at silenced
      | info => simp [global, LogLevel.rank] at silenced
      | error => exact absurd global enabled
  · rename_i enabled
    have notError : process.globalLogLevel ≠ .error := by
      intro error
      simp [error, LogLevel.rank] at enabled
    constructor
    · intro recorded
      obtain ⟨buffer, written, same⟩ := Option.map_eq_some_iff.mp recorded
      obtain rfl := splitLines_inj (records_inj same)
      exact ⟨notError, written⟩
    · rintro ⟨-, written⟩
      rw [written, Option.map_some]

/-- `%s` hands the text on, and the second pass takes it for a format. -/
theorem log_text (short : text.length ≤ 1023) :
    process.log moduleName (asciiBytes "%s") [text] =
      process.logAt moduleName .info text [] := by
  have first : vsnprintf 1024 (asciiBytes "%s") [text] = some (cString text) := by
    have length := length_cString_le text
    have written : formatted (cString (asciiBytes "%s")) [text] = some (cString text ++ []) := rfl
    rw [vsnprintf, written, List.append_nil, Option.map_some, List.take_of_length_le (by omega)]
  rw [log, first, Option.bind_some, logAt, logAt, vsnprintf, vsnprintf, cString_cString]

/-- Both ways into the log record a text as it is only where no percent sign and no NUL byte
is in it. -/
theorem log_text_iff (process : LogProcess) (moduleName text : List UInt8)
    (short : text.length ≤ 1023) :
    (process.log moduleName (asciiBytes "%s") [text] =
        some (process.records moduleName .info (splitLines text)) ↔
      process.globalLogLevel ≠ .error ∧ percent ∉ text ∧ 0 ∉ text) ∧
    (process.printLog text =
        some (process.records (asciiBytes "LUA") .info (splitLines text)) ↔
      process.globalLogLevel ≠ .error ∧ percent ∉ text ∧ 0 ∉ text) := by
  rw [log_text short]
  exact ⟨logAt_eq_iff short, logAt_eq_iff short⟩

def core : LogProcess := ⟨.debug, fun _ => asciiBytes "2025-01-01 00:00:00.000"⟩

theorem log_text_iff_twoLines :
    core.printLog (asciiBytes "a\nb") =
      some (core.records (asciiBytes "LUA") .info [asciiBytes "a", asciiBytes "b"]) :=
  (log_text_iff core (asciiBytes "sm") (asciiBytes "a\nb") (by decide)).2.mpr (by decide)

/-- An escaped percent sign is halved and a conversion reads an argument that is not there. -/
theorem log_text_fails :
    core.log (asciiBytes "sm") (asciiBytes "%s") [asciiBytes "50%% done"] =
        some (core.records (asciiBytes "sm") .info [asciiBytes "50% done"]) ∧
      core.log (asciiBytes "sm") (asciiBytes "%s") [asciiBytes "50%% done"] ≠
        some (core.records (asciiBytes "sm") .info (splitLines (asciiBytes "50%% done"))) ∧
      core.log (asciiBytes "sm") (asciiBytes "%s") [asciiBytes "50%"] = none ∧
      core.printLog (asciiBytes "%s") = none :=
  ⟨rfl, by decide, rfl, rfl⟩

end LogProcess

end AutoDrop
