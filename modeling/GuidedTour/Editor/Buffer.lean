import GuidedTour.Text.Basic

/-!
# Buffers

The text of an editor, divided by the cursor, with the selection if there is one. Inserting at the cursor
leaves the cursor behind what was inserted; deleting drops the selection and moves the cursor back by what
was deleted before it. The buffer keeps in mind that its text was modified until it is told to forget it.
-/

set_option autoImplicit false

namespace GuidedTour.Editor

/-- A text with a cursor in it. A selection is a range of offsets that is not empty. -/
structure Buffer where
  before : Text
  after : Text
  selection : Option (Nat × Nat)
  modified : Bool
deriving DecidableEq, Repr, Inhabited

namespace Buffer

/-- The buffer without text. -/
def empty : Buffer := ⟨[], [], none, false⟩

/-- The whole text. -/
def text (b : Buffer) : Text := b.before ++ b.after

/-- The offset of the cursor. -/
def cursor (b : Buffer) : Nat := b.before.length

/-- The character behind the cursor; at the end of the text that is a line feed. -/
def next (b : Buffer) : Char := b.after.head?.getD '\n'

/-- The selected text, empty without a selection. -/
def selected (b : Buffer) : Text :=
  match b.selection with
  | some (start, stop) => (b.text.take stop).drop start
  | none => []

/-- Puts the cursor at an offset, or at the end of a shorter text. -/
def jump (b : Buffer) (offset : Nat) : Buffer :=
  { b with before := b.text.take offset, after := b.text.drop offset }

/-- Moves the cursor by a distance, as far as the text goes. -/
def shift (b : Buffer) (distance : Int) : Buffer := b.jump (b.cursor + distance).toNat

/-- Puts the cursor at an offset and drops the selection. -/
def moveTo (b : Buffer) (offset : Nat) : Buffer := { b.jump offset with selection := none }

/-- Selects a range, as far as the text goes, and puts the cursor at its second offset. -/
def select (b : Buffer) (start stop : Nat) : Buffer :=
  let stop := min stop b.text.length
  { b.jump stop with selection := if start < stop then some (start, stop) else none }

/-- Inserts a text at the cursor. Inserting nothing changes nothing. -/
def insert (b : Buffer) (text : Text) : Buffer :=
  if text.isEmpty then b else { b with before := b.before ++ text, modified := true }

/-- Deletes a range of the text. -/
def delete (b : Buffer) (start stop : Nat) : Buffer :=
  let stop := min stop b.text.length
  if start < stop then
    let cursor :=
      if b.cursor ≤ start then b.cursor
      else if b.cursor ≤ stop then start
      else b.cursor - (stop - start)
    let rest := b.text.take start ++ b.text.drop stop
    ⟨rest.take cursor, rest.drop cursor, none, true⟩
  else { b with selection := none }

/-- Deletes what is selected. -/
def deleteSelected (b : Buffer) : Buffer :=
  match b.selection with
  | some (start, stop) => b.delete start stop
  | none => b

/-- Deletes what is selected, or the character before the cursor. -/
def backspace (b : Buffer) : Buffer :=
  match b.selection with
  | some (start, stop) => b.delete start stop
  | none => if b.cursor = 0 then b else b.delete (b.cursor - 1) b.cursor

/-- Types a text in place of what is selected. -/
def type (b : Buffer) (text : Text) : Buffer := b.deleteSelected.insert text

/-- Replaces the whole text. The cursor goes behind it. -/
def replace (b : Buffer) (text : Text) : Buffer := ((b.delete 0 b.text.length).moveTo 0).insert text

/-- Forgets that the text was modified. -/
def settled (b : Buffer) : Buffer := { b with modified := false }

end Buffer

end GuidedTour.Editor
