import Mathlib.Data.List.GetD
import Mathlib.Logic.Function.Basic

/-!
The row of a character display that the cursor is in. The display does not wrap: a printable
character overwrites the cell under the cursor, a backspace only moves it, a line feed opens
a blank row.
-/

structure LineScreen where
  cells : Nat → Char
  column : Nat

namespace LineScreen

def backspace : Char := '\x08'

def backspaces (count : Nat) : List Char := List.replicate count backspace

def spaces (count : Nat) : List Char := List.replicate count ' '

def Printable (c : Char) : Prop := 32 ≤ c.toNat ∧ c.toNat ≠ 127

instance (c : Char) : Decidable (Printable c) := inferInstanceAs (Decidable (_ ∧ _))

/-- What a program may write without moving the cursor back: text, tabs and whole rows. -/
def Forward (c : Char) : Prop := Printable c ∨ c = '\t' ∨ c = '\n'

instance (c : Char) : Decidable (Forward c) := inferInstanceAs (Decidable (_ ∨ _ ∨ _))

def blank : LineScreen := ⟨fun _ => ' ', 0⟩

def put (screen : LineScreen) (c : Char) : LineScreen :=
  if c = backspace then { screen with column := screen.column - 1 }
  else if c = '\r' then { screen with column := 0 }
  else if c = '\n' then blank
  -- a tab moves to the next of the stops, which are eight cells apart
  else if c = '\t' then { screen with column := (screen.column / 8 + 1) * 8 }
  else ⟨Function.update screen.cells screen.column c, screen.column + 1⟩

def write (screen : LineScreen) (text : List Char) : LineScreen := text.foldl put screen

/-- The row reads `row`, with blanks behind it, and the cursor is in `column`. -/
structure Shows (screen : LineScreen) (row : List Char) (column : Nat) : Prop where
  cells : ∀ index, screen.cells index = row.getD index ' '
  column : screen.column = column

theorem shows_blank : blank.Shows [] 0 := ⟨fun _ => rfl, rfl⟩

@[simp] theorem write_nil (screen : LineScreen) : screen.write [] = screen := rfl

@[simp] theorem write_cons (screen : LineScreen) (c : Char) (text : List Char) :
    screen.write (c :: text) = (screen.put c).write text := rfl

theorem write_append (screen : LineScreen) (first second : List Char) :
    screen.write (first ++ second) = (screen.write first).write second :=
  List.foldl_append

theorem put_backspace (screen : LineScreen) :
    screen.put backspace = { screen with column := screen.column - 1 } := by
  simp [put]

theorem put_lineFeed (screen : LineScreen) : screen.put '\n' = blank := by
  simp [put, backspace]

theorem put_printable (screen : LineScreen) {c : Char} (printable : Printable c) :
    screen.put c = ⟨Function.update screen.cells screen.column c, screen.column + 1⟩ := by
  obtain ⟨lower, -⟩ := printable
  have other : ∀ d : Char, d.toNat < 32 → c ≠ d := by
    intro d control same
    rw [same] at lower
    omega
  rw [put, if_neg (other _ (by decide)), if_neg (other _ (by decide)),
    if_neg (other _ (by decide)), if_neg (other _ (by decide))]

variable {screen : LineScreen} {row front old text : List Char} {column : Nat}

theorem getD_pad (row : List Char) (count index : Nat) :
    (row ++ spaces count).getD index ' ' = row.getD index ' ' := by
  rcases Nat.lt_or_ge index row.length with inside | outside
  · rw [List.getD_append _ _ _ _ inside]
  · rw [spaces, List.getD_append_right _ _ _ _ outside, List.getD_eq_default _ _ outside]
    simp only [List.getD_eq_getElem?_getD, List.getElem?_replicate]
    split <;> simp

/-- Blanks at the end of a row cannot be seen. -/
theorem shows_pad (count : Nat) :
    screen.Shows (row ++ spaces count) column ↔ screen.Shows row column := by
  constructor
  · intro shown
    exact ⟨fun index => (shown.cells index).trans (getD_pad row count index), shown.column⟩
  · intro shown
    exact ⟨fun index => (shown.cells index).trans (getD_pad row count index).symm, shown.column⟩

theorem Shows.put_backspace (shown : screen.Shows row column) :
    (screen.put backspace).Shows row (column - 1) := by
  rw [LineScreen.put_backspace]
  exact ⟨shown.cells, by simp [shown.column]⟩

theorem Shows.write_backspaces (shown : screen.Shows row column) (count : Nat) :
    (screen.write (backspaces count)).Shows row (column - count) := by
  induction count generalizing screen column with
  | zero => exact shown
  | succ count ih =>
      rw [backspaces, List.replicate_succ, write_cons]
      have later := ih shown.put_backspace
      have same : column - (count + 1) = column - 1 - count := by omega
      rw [same]
      exact later

theorem Shows.put_printable (shown : screen.Shows (front ++ old) front.length) {c : Char}
    (printable : Printable c) :
    (screen.put c).Shows ((front ++ [c]) ++ old.tail) (front ++ [c]).length := by
  rw [LineScreen.put_printable screen printable]
  refine ⟨fun index => ?_, by simp [shown.column]⟩
  simp only [shown.column]
  rcases Nat.lt_trichotomy index front.length with before | rfl | behind
  · rw [Function.update_of_ne (by omega), shown.cells, List.getD_append _ _ _ _ before,
      List.append_assoc, List.getD_append _ _ _ _ before]
  · rw [Function.update_self, List.append_assoc, List.getD_append_right _ _ _ _ (Nat.le_refl _)]
    simp
  · rw [Function.update_of_ne (by omega), shown.cells,
      List.getD_append_right _ _ _ _ (Nat.le_of_lt behind),
      List.getD_append_right _ _ _ _ (by simpa)]
    obtain ⟨distance, rfl⟩ := Nat.exists_eq_add_of_lt behind
    cases old with
    | nil => simp
    | cons first rest =>
        have left : front.length + distance + 1 - front.length = distance + 1 := by omega
        have right : front.length + distance + 1 - (front ++ [c]).length = distance := by
          rw [List.length_append, List.length_singleton]
          omega
        rw [left, right, List.getD_cons_succ, List.tail_cons]

theorem Shows.write_printable (shown : screen.Shows (front ++ old) front.length)
    (printable : ∀ c ∈ text, Printable c) :
    (screen.write text).Shows ((front ++ text) ++ old.drop text.length)
      (front ++ text).length := by
  induction text generalizing screen front old with
  | nil => simpa using shown
  | cons c text ih =>
      have first := shown.put_printable (printable c List.mem_cons_self)
      have later := ih first fun d member => printable d (List.mem_cons_of_mem c member)
      simpa using later

/-- Text is written over what stands behind the cursor, and the cursor goes back into it. -/
theorem Shows.redraw (shown : screen.Shows (front ++ old) front.length)
    (printable : ∀ c ∈ text, Printable c) (count : Nat) :
    (screen.write (text ++ backspaces count)).Shows
      (front ++ text ++ old.drop text.length) (front.length + text.length - count) := by
  rw [write_append]
  have written := (shown.write_printable printable).write_backspaces count
  rwa [List.length_append] at written

theorem printable_space : Printable ' ' := by decide

/-- The rest of a row is replaced by text, with enough blanks to cover what was longer. -/
theorem Shows.replaceRest (shown : screen.Shows (front ++ old) front.length)
    (printable : ∀ c ∈ text, Printable c) {blanks : Nat}
    (covered : old.length ≤ text.length + blanks) (count : Nat) :
    (screen.write (text ++ spaces blanks ++ backspaces count)).Shows (front ++ text)
      (front.length + text.length + blanks - count) := by
  have all : ∀ c ∈ text ++ spaces blanks, Printable c := by
    intro c member
    rcases List.mem_append.mp member with new | pad
    · exact printable c new
    · exact List.eq_of_mem_replicate pad ▸ printable_space
  have drawn := shown.redraw all count
  have size : (text ++ spaces blanks).length = text.length + blanks := by simp [spaces]
  have nothing : old.drop (text ++ spaces blanks).length = [] :=
    List.drop_eq_nil_of_le (size ▸ covered)
  rw [nothing, List.append_nil, ← List.append_assoc, shows_pad, size, ← Nat.add_assoc] at drawn
  exact drawn

theorem Shows.put_forward (shown : screen.Shows row row.length) {c : Char} (forward : Forward c) :
    ∃ next, (screen.put c).Shows next next.length := by
  rcases forward with printable | rfl | rfl
  · refine ⟨row ++ [c], ?_⟩
    have padded : screen.Shows (row ++ []) row.length := by simpa using shown
    simpa using padded.put_printable printable
  · refine ⟨row ++ spaces ((row.length / 8 + 1) * 8 - row.length), ?_⟩
    have moved : screen.put '\t' = { screen with column := (screen.column / 8 + 1) * 8 } := by
      simp [put, backspace]
    rw [shows_pad, moved]
    refine ⟨shown.cells, ?_⟩
    simp only [shown.column, spaces, List.length_append, List.length_replicate]
    omega
  · rw [put_lineFeed]
    exact ⟨[], shows_blank⟩

theorem Shows.write_forward (shown : screen.Shows row row.length)
    (forward : ∀ c ∈ text, Forward c) : ∃ next, (screen.write text).Shows next next.length := by
  induction text generalizing screen row with
  | nil => exact ⟨row, shown⟩
  | cons c text ih =>
      obtain ⟨next, first⟩ := shown.put_forward (forward c List.mem_cons_self)
      exact ih first fun d member => forward d (List.mem_cons_of_mem c member)

end LineScreen
