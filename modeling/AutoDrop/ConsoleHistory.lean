import AutoDrop.CliSplit
import AutoDrop.LabelledRun

/-!
`History`: the commands that the arrow keys bring back. The newest stands first, and while
the history is browsed the line under edit stands before it. A failed assertion, and an index
outside the buffer, give no result.
-/

namespace AutoDrop

open LabelledRun

inductive HistoryMode
  | inserting
  | browsing
deriving DecidableEq, Repr

structure History where
  maxSize : Nat
  buffer : List Chars
  current : Nat
  commands : Nat
  mode : HistoryMode
deriving DecidableEq, Repr

inductive HistoryCall
  | newCommand (item : Chars)
  | previous (line : Chars)
  | next
deriving DecidableEq

namespace History

def new (size : Nat) : History := ⟨size, [], 0, 0, .inserting⟩

def insert (history : History) (item : Chars) : History :=
  let pushed := item :: history.buffer
  { history with buffer := if history.maxSize < pushed.length then pushed.dropLast else pushed }

def loadCommands (history : History) (cmds : List Chars) : History := cmds.foldl insert history

def newCommand (history : History) (item : Chars) : Option History :=
  let counted := { history with commands := history.commands + 1, current := 0 }
  match history.mode with
  | .browsing =>
      if history.buffer = [] then none
      else if history.buffer[1]? = some item then
        some { counted with buffer := history.buffer.tail, mode := .inserting }
      else some { counted with buffer := history.buffer.set 0 item, mode := .inserting }
  | .inserting =>
      if history.buffer.head? = some item then some counted else some (counted.insert item)

/-- `buffer[current]`, behind the assertion that it is there. -/
def shown (history : History) : Option (History × Chars) :=
  history.buffer[history.current]?.map fun line => (history, line)

def previous (history : History) (line : Chars) : Option (History × Chars) :=
  match history.mode with
  | .inserting =>
      let inserted := history.insert line
      shown { inserted with
        mode := .browsing, current := if 1 < inserted.buffer.length then 1 else 0 }
  | .browsing =>
      if history.buffer = [] then none
      else
        shown { history with
          buffer := history.buffer.set history.current line
          current := if history.current ≠ history.buffer.length - 1 then history.current + 1
            else history.current }

def next (history : History) : Option (History × Chars) :=
  if history.buffer = [] ∨ history.current = 0 then some (history, [])
  else shown { history with current := history.current - 1 }

/-- The oldest of the returned commands comes first. -/
def getCommands (history : History) : Option (List Chars) :=
  match history.mode with
  | .inserting =>
      some (history.buffer.take (min history.commands history.buffer.length)).reverse
  | .browsing =>
      if history.buffer = [] then none
      else
        some (history.buffer.tail.take (min history.commands (history.buffer.length - 1))).reverse

def step (history : History) : HistoryCall → Option History
  | .newCommand item => history.newCommand item
  | .previous line => (history.previous line).map Prod.fst
  | .next => history.next.map Prod.fst

/-- The commands without the line under edit. -/
def recent (history : History) : List Chars :=
  match history.mode with
  | .inserting => history.buffer
  | .browsing => history.buffer.tail

structure Sound (history : History) : Prop where
  room : 0 < history.maxSize
  bounded : history.buffer.length ≤ history.maxSize
  inside : history.mode = .browsing → history.current < history.buffer.length
  rest : history.mode = .inserting → history.current = 0

@[simp] theorem maxSize_insert (history : History) (item : Chars) :
    (history.insert item).maxSize = history.maxSize := rfl

theorem buffer_insert {history : History} (bounded : history.buffer.length ≤ history.maxSize)
    (item : Chars) :
    (history.insert item).buffer = (item :: history.buffer).take history.maxSize := by
  simp only [insert]
  split
  · rename_i overfull
    have full : history.buffer.length = history.maxSize := by
      rw [List.length_cons] at overfull
      omega
    rw [List.dropLast_eq_take, List.length_cons, Nat.add_sub_cancel, full]
  · rename_i fits
    exact (List.take_of_length_le (by omega)).symm

theorem length_buffer_insert {history : History}
    (bounded : history.buffer.length ≤ history.maxSize) (item : Chars) :
    (history.insert item).buffer.length = min history.maxSize (history.buffer.length + 1) := by
  rw [buffer_insert bounded, List.length_take, List.length_cons]

/-- What `previous` leaves behind. -/
def afterPrevious (history : History) (line : Chars) : History :=
  match history.mode with
  | .inserting =>
      { history.insert line with
        mode := .browsing
        current := if 1 < (history.insert line).buffer.length then 1 else 0 }
  | .browsing =>
      { history with
        buffer := history.buffer.set history.current line
        current := if history.current ≠ history.buffer.length - 1 then history.current + 1
          else history.current }

theorem shown_of_inside {history : History} (inside : history.current < history.buffer.length) :
    ∃ line, history.shown = some (history, line) ∧
      history.buffer[history.current]? = some line := by
  refine ⟨history.buffer.get ⟨history.current, inside⟩, ?_, ?_⟩
  · simp [shown, inside]
  · simp [inside]

theorem mode_afterPrevious (history : History) (line : Chars) :
    (history.afterPrevious line).mode = .browsing := by
  cases mode : history.mode
  · simp [afterPrevious, mode]
  · simp [afterPrevious, mode]

theorem Sound.afterPrevious {history : History} (sound : history.Sound) (line : Chars) :
    (history.afterPrevious line).Sound := by
  have room := sound.room
  have bounded := sound.bounded
  have browsing := mode_afterPrevious history line
  cases mode : history.mode with
  | inserting =>
      have size := length_buffer_insert bounded line
      refine ⟨?_, ?_, fun _ => ?_, fun inserting => ?_⟩
      · simpa [History.afterPrevious, mode] using room
      · simp only [History.afterPrevious, mode, size, maxSize_insert]
        omega
      · simp only [History.afterPrevious, mode, size]
        split <;> omega
      · exact absurd (browsing.symm.trans inserting) (by decide)
  | browsing =>
      have inside := sound.inside mode
      refine ⟨?_, ?_, fun _ => ?_, fun inserting => ?_⟩
      · simpa [History.afterPrevious, mode] using room
      · simpa [History.afterPrevious, mode] using bounded
      · simp only [History.afterPrevious, mode, List.length_set]
        split <;> omega
      · exact absurd (browsing.symm.trans inserting) (by decide)

theorem previous_eq {history : History} (sound : history.Sound) (line : Chars) :
    ∃ found, history.previous line = some (history.afterPrevious line, found) ∧
      (history.afterPrevious line).buffer[(history.afterPrevious line).current]? = some found := by
  have inside := (sound.afterPrevious line).inside (mode_afterPrevious history line)
  obtain ⟨found, shown, here⟩ := shown_of_inside inside
  refine ⟨found, ?_, here⟩
  rw [← shown]
  cases mode : history.mode with
  | inserting => simp [previous, History.afterPrevious, mode]
  | browsing =>
      have nonempty : history.buffer ≠ [] := by
        intro empty
        simpa [empty] using sound.inside mode
      simp [previous, History.afterPrevious, mode, nonempty]

theorem Sound.back {history : History} (sound : history.Sound) :
    Sound { history with current := history.current - 1 } := by
  refine ⟨sound.room, sound.bounded, fun browsing => ?_, fun inserting => ?_⟩
  · have inside := sound.inside browsing
    simp only
    omega
  · simp [sound.rest inserting]

/-- Where there is nothing newer the answer is the empty line. -/
theorem next_eq {history : History} (sound : history.Sound) :
    ∃ found, history.next = some ({ history with current := history.current - 1 }, found) ∧
      (history.current = 0 ∧ found = [] ∨
        0 < history.current ∧ history.buffer[history.current - 1]? = some found) := by
  by_cases first : history.current = 0
  · refine ⟨[], ?_, .inl ⟨first, rfl⟩⟩
    have same : { history with current := history.current - 1 } = history := by
      cases history
      simp_all
    rw [next, if_pos (.inr first), same]
  · have browsing : history.mode = .browsing := by
      cases mode : history.mode with
      | inserting => exact absurd (sound.rest mode) first
      | browsing => rfl
    have inside := sound.inside browsing
    have nonempty : history.buffer ≠ [] := by
      intro empty
      simp [empty] at inside
    have stays : history.current - 1 < history.buffer.length := by omega
    obtain ⟨found, shown, here⟩ :=
      @shown_of_inside { history with current := history.current - 1 } stays
    refine ⟨found, ?_, .inr ⟨by omega, here⟩⟩
    rw [next, if_neg (by simp [first, nonempty]), shown]

/-- The commands behind one more: a command is not kept twice in a row. -/
def collapse (item : Chars) (log : List Chars) : List Chars :=
  if log.head? = some item then log else item :: log

theorem newCommand_eq {history : History} (sound : history.Sound) (item : Chars) :
    ∃ after, history.newCommand item = some after ∧ after.Sound ∧ after.mode = .inserting ∧
      after.maxSize = history.maxSize ∧ after.commands = history.commands + 1 ∧
      after.buffer = (collapse item history.recent).take history.maxSize := by
  have room := sound.room
  have bounded := sound.bounded
  cases mode : history.mode with
  | inserting =>
      by_cases again : history.buffer.head? = some item
      · refine ⟨{ history with commands := history.commands + 1, current := 0 }, ?_, ?_, mode,
          rfl, rfl, ?_⟩
        · simp [newCommand, mode, again]
        · exact ⟨room, bounded, fun browsing => absurd (browsing.symm.trans mode) (by decide),
            fun _ => rfl⟩
        · simp [collapse, recent, mode, again, List.take_of_length_le bounded]
      · let counted : History := { history with commands := history.commands + 1, current := 0 }
        refine ⟨counted.insert item, ?_, ?_, mode, rfl, rfl, ?_⟩
        · simp [newCommand, mode, again, counted]
        · have size : (counted.insert item).buffer.length = _ := length_buffer_insert bounded item
          refine ⟨room, ?_, fun browsing => absurd (browsing.symm.trans mode) (by decide),
            fun _ => rfl⟩
          rw [size]
          exact Nat.min_le_left _ _
        · have buffer : (counted.insert item).buffer = _ := buffer_insert bounded item
          rw [buffer]
          simp [collapse, recent, mode, again]
  | browsing =>
      have inside := sound.inside mode
      cases buffer : history.buffer with
      | nil => simp [buffer] at inside
      | cons line log =>
          rw [buffer, List.length_cons] at bounded
          by_cases again : log.head? = some item
          · refine ⟨⟨history.maxSize, log, 0, history.commands + 1, .inserting⟩, ?_, ?_, rfl, rfl,
              rfl, ?_⟩
            · simp [newCommand, mode, buffer, again, ← List.head?_eq_getElem?]
            · exact ⟨room, by simp only; omega, fun browsing => (nomatch browsing),
                fun _ => rfl⟩
            · have short : log.length ≤ history.maxSize := by omega
              simp [collapse, recent, mode, buffer, again, List.take_of_length_le short]
          · refine ⟨⟨history.maxSize, item :: log, 0, history.commands + 1, .inserting⟩, ?_, ?_,
              rfl, rfl, rfl, ?_⟩
            · simp [newCommand, mode, buffer, again, ← List.head?_eq_getElem?]
            · exact ⟨room, by simpa using bounded, fun browsing => (nomatch browsing),
                fun _ => rfl⟩
            · have short : (item :: log).length ≤ history.maxSize := by simpa using bounded
              simp only [collapse, recent, mode, buffer, List.tail_cons, again, if_false]
              exact (List.take_of_length_le short).symm

theorem mem_recent {history : History} {line : Chars} (member : line ∈ history.recent) :
    line ∈ history.buffer := by
  cases mode : history.mode with
  | inserting => simpa [recent, mode] using member
  | browsing =>
      rw [recent, mode] at member
      exact List.mem_of_mem_tail member

theorem mem_newCommand {history after : History} (sound : history.Sound) {item line : Chars}
    (taken : history.newCommand item = some after) (member : line ∈ after.buffer) :
    line = item ∨ line ∈ history.buffer := by
  obtain ⟨next, stepped, -, -, -, -, buffer⟩ := newCommand_eq sound item
  obtain rfl : next = after := Option.some.inj (stepped.symm.trans taken)
  have among : line ∈ collapse item history.recent := by
    rw [buffer] at member
    exact List.mem_of_mem_take member
  rw [collapse] at among
  split at among
  · exact .inr (mem_recent among)
  · rcases List.mem_cons.mp among with own | older
    · exact .inl own
    · exact .inr (mem_recent older)

theorem mem_afterPrevious {history : History} (sound : history.Sound) {shown line : Chars}
    (member : line ∈ (history.afterPrevious shown).buffer) :
    line = shown ∨ line ∈ history.buffer := by
  cases mode : history.mode with
  | inserting =>
      simp only [afterPrevious, mode, buffer_insert sound.bounded] at member
      simpa using List.mem_of_mem_take member
  | browsing =>
      simp only [afterPrevious, mode] at member
      exact (List.mem_or_eq_of_mem_set member).symm

theorem Sound.step {history : History} (sound : history.Sound) (call : HistoryCall) :
    ∃ after, history.step call = some after ∧ after.Sound ∧ after.maxSize = history.maxSize := by
  cases call with
  | newCommand item =>
      obtain ⟨after, taken, kept, -, size, -⟩ := newCommand_eq sound item
      exact ⟨after, taken, kept, size⟩
  | previous line =>
      obtain ⟨found, taken, -⟩ := previous_eq sound line
      refine ⟨history.afterPrevious line, by simp [History.step, taken],
        sound.afterPrevious line, ?_⟩
      cases mode : history.mode
      · simp [History.afterPrevious, mode]
      · simp [History.afterPrevious, mode]
  | next =>
      obtain ⟨found, taken, -⟩ := next_eq sound
      exact ⟨_, by simp [History.step, taken], sound.back, rfl⟩

theorem loadCommands_eq {history : History} (bounded : history.buffer.length ≤ history.maxSize)
    (cmds : List Chars) :
    history.loadCommands cmds = { history with
      buffer := (cmds.reverse ++ history.buffer).take history.maxSize } := by
  induction cmds generalizing history with
  | nil =>
      simp only [loadCommands, List.foldl_nil, List.reverse_nil, List.nil_append,
        List.take_of_length_le bounded]
  | cons cmd cmds ih =>
      have first := buffer_insert bounded cmd
      have short : (history.insert cmd).buffer.length ≤ (history.insert cmd).maxSize := by
        rw [first, List.length_take]
        exact Nat.min_le_left _ _
      have later := ih short
      simp only [loadCommands, List.foldl_cons] at later ⊢
      rw [later, first]
      simp [insert, List.take_append, List.take_take]

theorem loadCommands_new (size : Nat) (cmds : List Chars) :
    (new size).loadCommands cmds = ⟨size, cmds.reverse.take size, 0, 0, .inserting⟩ := by
  have empty : (new size).buffer.length ≤ (new size).maxSize := Nat.zero_le _
  rw [loadCommands_eq empty]
  simp [new]

theorem sound_loadCommands {size : Nat} (room : 0 < size) (cmds : List Chars) :
    ((new size).loadCommands cmds).Sound := by
  rw [loadCommands_new]
  refine ⟨room, ?_, fun browsing => (nomatch browsing), fun _ => rfl⟩
  simp only [List.length_take]
  exact Nat.min_le_left _ _

end History

inductive HistoryMove
  | up
  | down
deriving DecidableEq, Repr

namespace History

/-- The arrow keys, while the line that they show is left as it is. -/
def browse (history : History) (line : Chars) : List HistoryMove → Option (History × Chars)
  | [] => some (history, line)
  | .up :: rest => (history.previous line).bind fun found => found.1.browse found.2 rest
  | .down :: rest => history.next.bind fun found => found.1.browse found.2 rest

/-- A cursor over `count` lines: it stays at the last one, and may not leave the first. -/
def walk (count : Nat) : Nat → List HistoryMove → Option Nat
  | index, [] => some index
  | index, .up :: rest => walk count (min (index + 1) (count - 1)) rest
  | 0, .down :: _ => none
  | index + 1, .down :: rest => walk count index rest

theorem set_of_getElem? {entries : List Chars} {index : Nat} {line : Chars}
    (here : entries[index]? = some line) : entries.set index line = entries := by
  apply List.ext_getElem?
  intro other
  rw [List.getElem?_set]
  split
  · rename_i same
    subst same
    rw [here]
    have inside := (List.getElem?_eq_some_iff.mp here).1
    simp [inside]
  · rfl

theorem browse_walk {history : History} (sound : history.Sound) (mode : history.mode = .browsing)
    {line : Chars} (here : history.buffer[history.current]? = some line)
    {moves : List HistoryMove} {index : Nat}
    (walked : walk history.buffer.length history.current moves = some index) :
    ∃ after found, history.browse line moves = some (after, found) ∧
      after.buffer = history.buffer ∧ history.buffer[index]? = some found := by
  induction moves generalizing history line with
  | nil =>
      obtain rfl : history.current = index := Option.some.inj walked
      exact ⟨history, line, rfl, rfl, here⟩
  | cons move rest ih =>
      cases move with
      | up =>
          obtain ⟨found, taken, there⟩ := previous_eq sound line
          have buffer : (history.afterPrevious line).buffer = history.buffer := by
            simp only [afterPrevious, mode]
            exact set_of_getElem? here
          have current : (history.afterPrevious line).current =
              min (history.current + 1) (history.buffer.length - 1) := by
            have inside := sound.inside mode
            simp only [afterPrevious, mode]
            split <;> omega
          rw [walk, ← current, ← buffer] at walked
          have later := ih (sound.afterPrevious line) (mode_afterPrevious history line) there walked
          simpa only [browse, taken, Option.bind_some, buffer] using later
      | down =>
          obtain ⟨found, taken, ends | ⟨positive, there⟩⟩ := next_eq sound
          · simp [ends.1, walk] at walked
          · obtain ⟨before, before_eq⟩ := Nat.exists_eq_succ_of_ne_zero (Nat.ne_of_gt positive)
            have walkedBack :
                walk history.buffer.length (history.current - 1) rest = some index := by
              simpa [before_eq, walk] using walked
            have later := ih sound.back mode there walkedBack
            simpa only [browse, taken, Option.bind_some] using later

/-- The arrow keys move over the line under edit and the commands before it, and change none
of them. -/
theorem browse_shows {history : History} (sound : history.Sound)
    (mode : history.mode = .inserting) (line : Chars) {moves : List HistoryMove} {index : Nat}
    (walked : walk ((line :: history.buffer).take history.maxSize).length 0 (.up :: moves) =
      some index) :
    ∃ after found, history.browse line (.up :: moves) = some (after, found) ∧
      after.buffer = (line :: history.buffer).take history.maxSize ∧
      ((line :: history.buffer).take history.maxSize)[index]? = some found := by
  obtain ⟨found, taken, there⟩ := previous_eq sound line
  have buffer : (history.afterPrevious line).buffer =
      (line :: history.buffer).take history.maxSize := by
    simp only [afterPrevious, mode]
    exact buffer_insert sound.bounded line
  have current : (history.afterPrevious line).current =
      min (0 + 1) ((history.afterPrevious line).buffer.length - 1) := by
    simp only [afterPrevious, mode]
    split <;> omega
  rw [walk, ← buffer, ← current] at walked
  have later := browse_walk (sound.afterPrevious line) (mode_afterPrevious history line)
    there walked
  simpa only [browse, taken, Option.bind_some, buffer] using later

def twoCommands : History := (new 3).loadCommands ["list".toList, "save".toList]

theorem browse_shows_back :
    ∃ after found, twoCommands.browse "x".toList (.up :: [.up, .up, .down]) = some (after, found) ∧
      after.buffer = ("x".toList :: twoCommands.buffer).take twoCommands.maxSize ∧
      (("x".toList :: twoCommands.buffer).take twoCommands.maxSize)[1]? = some found := by
  have sound : twoCommands.Sound := sound_loadCommands (by decide) _
  exact browse_shows sound rfl "x".toList (by decide)

/-- The lines that older commands are shown as are not edited. -/
def Untouched (history : History) : HistoryCall → Prop
  | .previous line => history.current ≠ 0 → history.buffer[history.current]? = some line
  | .newCommand _ => True
  | .next => True

instance (history : History) (call : HistoryCall) : Decidable (Untouched history call) :=
  match call with
  | .previous _ => inferInstanceAs (Decidable (_ → _))
  | .newCommand _ => inferInstanceAs (Decidable True)
  | .next => inferInstanceAs (Decidable True)

def issued (calls : List HistoryCall) : List Chars :=
  calls.filterMap fun call => match call with
    | .newCommand item => some item
    | _ => none

/-- All commands ever, the newest first. -/
def logOf (loaded calls : List Chars) : List Chars :=
  calls.foldl (fun log item => collapse item log) loaded.reverse

/-- A history of that size still holds this much of the log. -/
def Holds (size : Nat) (history : History) (log : List Chars) : Prop :=
  ∃ kept, size - 1 ≤ kept ∧ kept ≤ size ∧ history.recent = log.take kept

theorem collapse_take {size kept : Nat} (room : 0 < size) (lower : size - 1 ≤ kept)
    (upper : kept ≤ size) (item : Chars) (log : List Chars) :
    ∃ next, size - 1 ≤ next ∧ next ≤ size ∧
      (collapse item (log.take kept)).take size = (collapse item log).take next := by
  -- a history of one command that holds none of the log takes the same command again
  have pushed : (item :: log.take kept).take size = (item :: log).take size := by
    obtain ⟨below, rfl⟩ := Nat.exists_eq_succ_of_ne_zero (Nat.ne_of_gt room)
    have same : min below kept = below := by omega
    simp [List.take_take, same]
  by_cases again : log.head? = some item
  · rw [show collapse item log = log by simp [collapse, again]]
    cases kept with
    | zero =>
        refine ⟨size, by omega, Nat.le_refl _, ?_⟩
        have one : size = 1 := by omega
        cases log with
        | nil => simp at again
        | cons first rest =>
            obtain rfl : first = item := by simpa using again
            simp [collapse, one]
    | succ below =>
        refine ⟨below + 1, lower, upper, ?_⟩
        have head : (log.take (below + 1)).head? = some item := by
          simpa [List.head?_take] using again
        simp [collapse, head, List.take_take, Nat.min_eq_right upper]
  · refine ⟨size, by omega, Nat.le_refl _, ?_⟩
    have head : (log.take kept).head? ≠ some item := by
      cases kept with
      | zero => simp
      | succ below => simpa [List.head?_take] using again
    simpa [collapse, again, head] using pushed

theorem recent_browsing {history : History} (mode : history.mode = .browsing) :
    history.recent = history.buffer.tail := by
  simp [recent, mode]

theorem recent_inserting {history : History} (mode : history.mode = .inserting) :
    history.recent = history.buffer := by
  simp [recent, mode]

theorem Holds.previous {size : Nat} {history : History} {log : List Chars}
    (sound : history.Sound) (same : history.maxSize = size) (holds : Holds size history log)
    {line : Chars} (untouched : Untouched history (.previous line)) :
    Holds size (history.afterPrevious line) log := by
  obtain ⟨kept, lower, upper, recent⟩ := holds
  subst same
  rw [Holds, recent_browsing (mode_afterPrevious history line)]
  cases mode : history.mode with
  | inserting =>
      refine ⟨history.maxSize - 1, Nat.le_refl _, Nat.sub_le _ _, ?_⟩
      have buffer := buffer_insert sound.bounded line
      obtain ⟨below, size⟩ := Nat.exists_eq_succ_of_ne_zero (Nat.ne_of_gt sound.room)
      rw [recent_inserting mode] at recent
      simp only [afterPrevious, mode, buffer, size, List.take_succ_cons, List.tail_cons,
        Nat.succ_eq_add_one, Nat.add_sub_cancel, recent, List.take_take]
      congr 1
      omega
  | browsing =>
      refine ⟨kept, lower, upper, ?_⟩
      rw [recent_browsing mode] at recent
      rw [← recent]
      simp only [afterPrevious, mode]
      by_cases first : history.current = 0
      · rw [first]
        cases history.buffer
        · rfl
        · rfl
      · rw [set_of_getElem? (untouched first)]

theorem Holds.step {size : Nat} {history after : History} {loaded items : List Chars}
    {call : HistoryCall} (sound : history.Sound) (same : history.maxSize = size)
    (holds : Holds size history (logOf loaded items)) (untouched : Untouched history call)
    (taken : history.step call = some after) :
    Holds size after (logOf loaded (items ++ issued [call])) ∧
      after.commands = history.commands + (issued [call]).length := by
  cases call with
  | newCommand item =>
      obtain ⟨next, stepped, -, mode, -, commands, buffer⟩ := newCommand_eq sound item
      obtain rfl : next = after := Option.some.inj (stepped.symm.trans taken)
      obtain ⟨kept, lower, upper, recent⟩ := holds
      have room : 0 < size := same ▸ sound.room
      obtain ⟨later, lowerLater, upperLater, equal⟩ :=
        collapse_take room lower upper item (logOf loaded items)
      refine ⟨⟨later, lowerLater, upperLater, ?_⟩, commands⟩
      rw [recent_inserting mode, buffer, recent, same, equal]
      simp [logOf, issued]
  | previous line =>
      obtain ⟨found, stepped, -⟩ := previous_eq sound line
      obtain rfl : history.afterPrevious line = after := by
        simpa [History.step, stepped] using taken
      refine ⟨by simpa [issued] using holds.previous sound same untouched, ?_⟩
      cases mode : history.mode
      · simp [afterPrevious, mode, issued, insert]
      · simp [afterPrevious, mode, issued]
  | next =>
      obtain ⟨found, stepped, -⟩ := next_eq sound
      obtain rfl : { history with current := history.current - 1 } = after := by
        simpa [History.step, stepped] using taken
      exact ⟨by simpa [issued, Holds, recent] using holds, by simp [issued]⟩

theorem getCommands_eq {history : History} (sound : history.Sound) :
    history.getCommands = some (history.recent.take history.commands).reverse := by
  have counts : ∀ (log : List Chars) (count : Nat),
      log.take (min count log.length) = log.take count := by
    intro log count
    rw [← List.take_take, List.take_length]
  cases mode : history.mode with
  | inserting => simp [getCommands, recent, mode, counts]
  | browsing =>
      have nonempty : history.buffer ≠ [] := by
        intro empty
        simpa [empty] using sound.inside mode
      have tail := counts history.buffer.tail history.commands
      rw [List.length_tail] at tail
      simp [getCommands, recent, mode, nonempty, tail]

theorem issued_cons (call : HistoryCall) (calls : List HistoryCall) :
    issued (call :: calls) = issued [call] ++ issued calls :=
  @List.filterMap_append _ _ [call] calls _

theorem exec_holds {size : Nat} {history : History} {loaded items : List Chars}
    {calls : List HistoryCall} (sound : history.Sound) (same : history.maxSize = size)
    (holds : Holds size history (logOf loaded items)) (meets : Meets step Untouched history calls) :
    ∃ final, exec step history calls = some final ∧ final.Sound ∧
      Holds size final (logOf loaded (items ++ issued calls)) ∧
      final.commands = history.commands + (issued calls).length := by
  induction calls generalizing history items with
  | nil => exact ⟨history, rfl, sound, by simpa [issued] using holds, rfl⟩
  | cons call calls ih =>
      obtain ⟨after, taken, kept, size⟩ := sound.step call
      obtain ⟨later, counted⟩ := holds.step sound same meets.1 taken
      obtain ⟨final, run, ends, full, total⟩ :=
        ih kept (size.trans same) later (meets.2 after taken)
      refine ⟨final, exec_cons_eq_some.mpr ⟨after, taken, run⟩, ends, ?_, ?_⟩
      · rw [issued_cons, ← List.append_assoc]
        exact full
      · rw [issued_cons, List.length_append, total, counted, Nat.add_assoc]

/-- What a session stores when it ends: as many of the latest commands as it issued, as far
as the history held them. -/
theorem stored_commands {size : Nat} (room : 0 < size) (loaded : List Chars)
    (calls : List HistoryCall)
    (untouched : Meets step Untouched ((new size).loadCommands loaded) calls) :
    ∃ final kept, exec step ((new size).loadCommands loaded) calls = some final ∧
      size - 1 ≤ kept ∧ kept ≤ size ∧
      final.getCommands =
        some ((logOf loaded (issued calls)).take (min (issued calls).length kept)).reverse := by
  have sound := sound_loadCommands room loaded
  rw [loadCommands_new] at sound untouched ⊢
  have holds : Holds size ⟨size, loaded.reverse.take size, 0, 0, .inserting⟩ (logOf loaded []) :=
    ⟨size, Nat.sub_le _ _, Nat.le_refl _, rfl⟩
  obtain ⟨final, run, ends, ⟨kept, lower, upper, recent⟩, total⟩ :=
    exec_holds sound rfl holds untouched
  refine ⟨final, kept, run, lower, upper, ?_⟩
  have count : final.commands = (issued calls).length := by simpa using total
  rw [getCommands_eq ends, recent, count, List.take_take, List.nil_append]

theorem stored_commands_browsed :
    ∃ final kept, exec step ((new 2).loadCommands ["a".toList])
        [.previous "x".toList, .next, .newCommand "b".toList] = some final ∧
      1 ≤ kept ∧ kept ≤ 2 ∧
      final.getCommands = some ((logOf ["a".toList] ["b".toList]).take (min 1 kept)).reverse :=
  stored_commands (by decide) ["a".toList]
    [.previous "x".toList, .next, .newCommand "b".toList] (by decide)

end History

end AutoDrop
