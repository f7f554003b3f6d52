import SeedGrammar.Text.Digits
import SeedGrammar.Text.Utf8

namespace SeedGrammar

/-!
# Lines and columns

A byte offset into a text is shown to its author as a line and a column.
Lines are separated by newlines alone, and a column counts characters, not
bytes.  Both start at one.  An offset past the end stands for the end.
-/

/-- A place in a text: its byte offset, its line and its column. -/
structure SourcePosition where
  offset : Nat
  line : Nat
  column : Nat
deriving DecidableEq, Repr

namespace SourcePosition

/-- Line and column after reading one more character. -/
def advance (place : Nat × Nat) (c : Char) : Nat × Nat :=
  if c = '\n' then (place.1 + 1, 1) else (place.1, place.2 + 1)

/-- Line and column after every character that starts before a byte offset.
A character that the offset cuts in two still counts. -/
def scan : Nat -> List Char -> Nat × Nat -> Nat × Nat
  | _, [], place => place
  | 0, _ :: _, place => place
  | offset + 1, c :: rest, place => scan (offset + 1 - c.utf8Size) rest (advance place c)

/-- The place of a byte offset. -/
def ofOffset (text : String) (offset : Nat) : SourcePosition :=
  let offset := min offset (Text.byteLength text.toList)
  let place := scan offset text.toList (1, 1)
  ⟨offset, place.1, place.2⟩

/-- The line that holds the place, without its newline.  A place inside a
character has none: the text cannot be cut there. -/
def lineText? (position : SourcePosition) (text : String) : Option String :=
  let chars := text.toList
  let offset := min position.offset (Text.byteLength chars)
  match Text.takeBytes offset chars, Text.dropBytes offset chars with
  | some before, some after =>
    let start := (before.reverse.takeWhile (· ≠ '\n')).reverse
    some (String.ofList (start ++ after.takeWhile (· ≠ '\n')))
  | _, _ => none

/-- How a place is shown to a reader. -/
def display (position : SourcePosition) : String :=
  "line " ++ Text.decimal position.line ++ ", column " ++ Text.decimal position.column

end SourcePosition
end SeedGrammar
