import SeedGrammar.Text.Digits
import SeedGrammar.Text.Utf8

namespace SeedGrammar

/-!
# JSON values and strings

A JSON text denotes a tree.  Numbers keep the digits they were written with,
because the readers built on the tree accept some spellings of a number and
refuse others.  Strings keep their units: an escape names a UTF-16 unit,
which may be half of a surrogate pair, and whether a lone half is tolerated
depends on whether anybody looks at the string.
-/

/-- A unit of a JSON string: a character, or the UTF-16 unit of an escape. -/
inductive JsonUnit where
  | char (c : Char)
  | escape (unit : Nat)
deriving DecidableEq, Repr

/-- A JSON value.  Members keep their order, and keys may repeat. -/
inductive Json where
  | null
  | bool (value : Bool)
  | number (digits : List Char)
  | string (units : List JsonUnit)
  | array (items : List Json)
  | object (members : List (List JsonUnit × Json))

namespace Json

/-- Whether a UTF-16 unit is the first half of a surrogate pair. -/
def isHighSurrogate (unit : Nat) : Bool :=
  0xD800 ≤ unit && unit ≤ 0xDBFF

/-- Whether a UTF-16 unit is the second half of a surrogate pair. -/
def isLowSurrogate (unit : Nat) : Bool :=
  0xDC00 ≤ unit && unit ≤ 0xDFFF

/-- The characters of a string.  A lone half of a surrogate pair has none. -/
def textChars? : List JsonUnit -> Option (List Char)
  | [] => some []
  | .char c :: rest => (textChars? rest).map (c :: ·)
  | .escape unit :: rest =>
    if isHighSurrogate unit then
      match rest with
      | .escape low :: rest =>
        if isLowSurrogate low then
          (textChars? rest).map
            (Char.ofNat (0x10000 + (unit - 0xD800) * 0x400 + (low - 0xDC00)) :: ·)
        else none
      | _ => none
    else if isLowSurrogate unit then none
    else (textChars? rest).map (Char.ofNat unit :: ·)

/-- The text of a string. -/
def text? (units : List JsonUnit) : Option String :=
  (textChars? units).map String.ofList

/-- A character as it is written inside a string.  Controls without a short
escape are written by their code, with four digits. -/
def stringChar (c : Char) : String :=
  if c = '"' then "\\\""
  else if c = '\\' then "\\\\"
  else if c = '\x08' then "\\b"
  else if c = '\x0c' then "\\f"
  else if c = '\n' then "\\n"
  else if c = '\r' then "\\r"
  else if c = '\t' then "\\t"
  else if c.toNat < 0x10 then "\\u000" ++ Text.lowerHex c.toNat
  else if c.toNat < 0x20 then "\\u00" ++ Text.lowerHex c.toNat
  else c.toString

/-- A text as a JSON string. -/
def stringText (text : String) : String :=
  "\"" ++ String.join (text.toList.map stringChar) ++ "\""

/-- A value that may be absent, written as null when it is. -/
def optionText {α : Type} (write : α -> String) : Option α -> String
  | some value => write value
  | none => "null"

end Json
end SeedGrammar
