import SeedGrammar.CharSet.Algebra
import SeedGrammar.CharSet.Named
import SeedGrammar.Pattern.Basic
import SeedGrammar.Pattern.Flags
import SeedGrammar.Text.Digits
import SeedGrammar.Text.Utf8

namespace SeedGrammar

/-!
# Escapes of a regular expression

A backslash before an ASCII character that is neither letter nor digit makes
it literal; the angle brackets are excepted and stand for the start and the
end of a word.  Letters name control characters, classes and assertions, or
introduce a code point in hexadecimal.  Any other letter is refused, and so
is every digit: there are no references to earlier groups.  Classes that are
named by a Unicode property and word boundaries that are named in braces are
not read.
-/

/-- What an escape stands for. -/
inductive PatternEscape where
  | literal (c : Char)
  | set (set : CharSet)
  | assertion (assertion : Assertion)

namespace PatternEscape

/-- The character of a sequence of hexadecimal digits. -/
def ofHex? (digits : List Char) : Option PatternEscape :=
  ((Text.ofHex? digits).bind Text.scalar?).map literal

/-- A fixed number of characters, with whatever is ignored between them. -/
def readFixed (flags : PatternFlags) : Nat -> List Char -> Option (List Char × List Char)
  | 0, chars => some ([], chars)
  | _ + 1, [] => none
  | count + 1, c :: rest =>
    (readFixed flags count (flags.skip rest)).map fun (digits, rest) => (c :: digits, rest)

/-- The characters up to a closing brace, with whatever is ignored between
them. -/
def readBraced (flags : PatternFlags) : Nat -> List Char -> Option (List Char × List Char)
  | 0, _ => none
  | _ + 1, [] => none
  | fuel + 1, c :: rest =>
    if c = '}' then some ([], flags.skip rest)
    else
      (readBraced flags fuel (flags.skip rest)).map fun (digits, rest) => (c :: digits, rest)

/-- A code point in hexadecimal: in braces, or with a fixed number of
digits. -/
def readCode (flags : PatternFlags) (count : Nat) (chars : List Char) :
    Option (PatternEscape × List Char) :=
  match flags.skip chars with
  | '{' :: rest =>
    match readBraced flags (rest.length + 1) (flags.skip rest) with
    | some (digits, rest) =>
      if digits.isEmpty then none else (ofHex? digits).map fun escape => (escape, rest)
    | none => none
  | chars =>
    match readFixed flags count chars with
    | some (digits, rest) => (ofHex? digits).map fun escape => (escape, rest)
    | none => none

/-- What a single character stands for after a backslash. -/
def single? (c : Char) : Option PatternEscape :=
  if c = 'd' then some (set .digit)
  else if c = 'D' then some (set CharSet.digit.complement)
  else if c = 's' then some (set .blank)
  else if c = 'S' then some (set CharSet.blank.complement)
  else if c = 'w' then some (set .word)
  else if c = 'W' then some (set CharSet.word.complement)
  else if c = 'A' then some (assertion .textStart)
  else if c = 'z' then some (assertion .textEnd)
  else if c = 'b' then some (assertion .wordBoundary)
  else if c = 'B' then some (assertion .noWordBoundary)
  else if c = '<' then some (assertion .wordStart)
  else if c = '>' then some (assertion .wordEnd)
  else if c = 'a' then some (literal '\x07')
  else if c = 'f' then some (literal '\x0c')
  else if c = 'n' then some (literal '\n')
  else if c = 'r' then some (literal '\r')
  else if c = 't' then some (literal '\t')
  else if c = 'v' then some (literal '\x0b')
  else if c.isAlphanum ∨ 0x80 ≤ c.toNat then none
  else some (literal c)

/-- The escape whose backslash has been read. -/
def read (flags : PatternFlags) : List Char -> Option (PatternEscape × List Char)
  | [] => none
  | c :: rest =>
    if c = 'x' then readCode flags 2 rest
    else if c = 'u' then readCode flags 4 rest
    else if c = 'U' then readCode flags 8 rest
    else (single? c).map fun escape => (escape, rest)

end PatternEscape
end SeedGrammar
