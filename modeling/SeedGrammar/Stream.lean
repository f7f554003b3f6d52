import SeedGrammar.Text.Digits
import SeedGrammar.Text.Quoted
import SeedGrammar.Text.Utf8

namespace SeedGrammar

/-!
# Inputs

An input is a sequence with a length, of which a part can be cut out as an
input of the same type.  Bounds of a cut are moved into the input, so a cut
always exists.  Whether a literal stands at a position follows from those
two: the part of its length equals it.  A type of inputs may answer that
question faster in its own way.

Positions count the units of the input.  Those of a text are UTF-8 bytes.
-/

/-- Whether a literal stands at a position, by cutting out the part that it
would be. -/
def standsAt {S : Type} [BEq S] (length : S -> Nat) (slice : S -> Nat -> Nat -> S)
    (input : S) (position : Nat) (literal : S) : Bool :=
  let stop := position + length literal
  decide (stop ≤ length input) && slice input position stop == literal

/-- Inputs that a parser can run on. -/
class Stream (S : Type) where
  equality : DecidableEq S
  length : S -> Nat
  slice : S -> Nat -> Nat -> S
  display : S -> String
  matchesAt : S -> Nat -> S -> Bool := standsAt length slice

attribute [reducible, instance] Stream.equality

/-- Whether an input has no units. -/
def Stream.isEmpty {S : Type} [Stream S] (input : S) : Bool :=
  Stream.length input == 0

/-- Inputs of Unicode text: a character with its width can be read at a
position, and the whole can be seen as a text. -/
class CharStream (S : Type) where
  charAt : S -> Nat -> Option (Char × Nat)
  text : S -> String

namespace Text

/-- Whether the bytes of a literal stand at a byte offset, which need not be
the start of a character. -/
def matchesAt (text : String) (offset : Nat) (literal : String) : Bool :=
  hasBytesAt (bytes literal.toList) offset text.toList

theorem matchesAt_iff {text literal : String} {offset : Nat} :
    matchesAt text offset literal = true ↔
      offset ≤ byteLength text.toList ∧
        bytes literal.toList <+: (bytes text.toList).drop offset :=
  hasBytesAt_iff

end Text

/-- Text is cut by byte offsets. -/
instance : Stream String where
  equality := inferInstance
  length text := Text.byteLength text.toList
  slice := Text.slice
  display := Text.quoted
  matchesAt := Text.matchesAt

/-- Text is made of characters. -/
instance : CharStream String where
  charAt := Text.charAt
  text := id

namespace Sequence

variable {α : Type}

/-- The elements between two indices, both of which are moved into the
sequence. -/
def slice (elements : List α) (start stop : Nat) : List α :=
  let stop := min stop elements.length
  let start := min start stop
  (elements.drop start).take (stop - start)

/-- Whether the elements of a literal stand at an index. -/
def matchesAt [BEq α] (elements : List α) (index : Nat) (literal : List α) : Bool :=
  decide (index ≤ elements.length) && literal.isPrefixOf (elements.drop index)

end Sequence

/-- Sequences of bytes are read by index. -/
instance : Stream (List UInt8) where
  equality := inferInstance
  length := List.length
  slice := Sequence.slice
  display bytes := Text.bracketed (bytes.map fun byte => Text.decimal byte.toNat)
  matchesAt := Sequence.matchesAt

end SeedGrammar
