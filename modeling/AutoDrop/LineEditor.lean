import Mathlib.Data.List.Basic

/-!
A line under edit, cut at its cursor. Every operation works where the two halves meet.
-/

structure LineEditor (Symbol : Type*) where
  before : List Symbol
  after : List Symbol

namespace LineEditor

variable {Symbol : Type*}

def empty : LineEditor Symbol := ⟨[], []⟩

def text (editor : LineEditor Symbol) : List Symbol := editor.before ++ editor.after

def insert (editor : LineEditor Symbol) (symbol : Symbol) : LineEditor Symbol :=
  ⟨editor.before ++ [symbol], editor.after⟩

def eraseBefore (editor : LineEditor Symbol) : LineEditor Symbol :=
  ⟨editor.before.dropLast, editor.after⟩

def eraseAfter (editor : LineEditor Symbol) : LineEditor Symbol :=
  ⟨editor.before, editor.after.tail⟩

def left (editor : LineEditor Symbol) : LineEditor Symbol :=
  ⟨editor.before.dropLast, editor.before.getLast?.toList ++ editor.after⟩

def right (editor : LineEditor Symbol) : LineEditor Symbol :=
  ⟨editor.before ++ editor.after.head?.toList, editor.after.tail⟩

def home (editor : LineEditor Symbol) : LineEditor Symbol := ⟨[], editor.text⟩

def last (editor : LineEditor Symbol) : LineEditor Symbol := ⟨editor.text, []⟩

def replace (text : List Symbol) : LineEditor Symbol := ⟨text, []⟩

/-- The line as it is held with a cursor that counts. -/
def ofCursor (line : List Symbol) (position : Nat) : LineEditor Symbol :=
  ⟨line.take position, line.drop position⟩

@[simp] theorem text_ofCursor (line : List Symbol) (position : Nat) :
    (ofCursor line position).text = line :=
  List.take_append_drop position line

theorem ofCursor_append (before after : List Symbol) :
    ofCursor (before ++ after) before.length = ⟨before, after⟩ := by
  simp [ofCursor]

@[simp] theorem ofCursor_length (line : List Symbol) :
    ofCursor line line.length = replace line := by
  simp [ofCursor, replace]

@[simp] theorem ofCursor_zero (line : List Symbol) : ofCursor line 0 = ⟨[], line⟩ := rfl

end LineEditor
