import SeedGrammar.Json.Basic

namespace SeedGrammar
namespace Json

/-!
# Reading JSON

A reader for the whole grammar of JSON.  Each part consumes characters from
the front and returns the rest, or fails; nothing is skipped except the four
white space characters between tokens.  Values nest without limit: the only
bound is the length of the text, since each level of nesting takes at least
one character.
-/

/-- Drop white space. -/
def skipBlank (chars : List Char) : List Char :=
  chars.dropWhile fun c => c = ' ' ∨ c = '\t' ∨ c = '\n' ∨ c = '\r'

/-- The control or delimiter that a single letter escapes. -/
def shortEscape? (c : Char) : Option Char :=
  if c = '"' then some '"'
  else if c = '\\' then some '\\'
  else if c = '/' then some '/'
  else if c = 'b' then some '\x08'
  else if c = 'f' then some '\x0c'
  else if c = 'n' then some '\n'
  else if c = 'r' then some '\r'
  else if c = 't' then some '\t'
  else none

/-- The units of a string whose opening quote has been read. -/
def readUnits : List Char -> Option (List JsonUnit × List Char)
  | [] => none
  | '"' :: rest => some ([], rest)
  | '\\' :: 'u' :: a :: b :: c :: d :: rest =>
    match Text.ofHex? [a, b, c, d], readUnits rest with
    | some unit, some (units, rest) => some (.escape unit :: units, rest)
    | _, _ => none
  | '\\' :: c :: rest =>
    match shortEscape? c, readUnits rest with
    | some char, some (units, rest) => some (.char char :: units, rest)
    | _, _ => none
  | c :: rest =>
    if c.toNat < 0x20 ∨ c = '\\' then none
    else (readUnits rest).map fun (units, rest) => (.char c :: units, rest)

/-- Split off the leading decimal digits. -/
def spanDigits (chars : List Char) : List Char × List Char :=
  (chars.takeWhile Text.isDecimalDigit, chars.dropWhile Text.isDecimalDigit)

/-- The whole part of a number: a zero, or digits that start with another. -/
def readWhole : List Char -> Option (List Char × List Char)
  | [] => none
  | c :: rest =>
    if c = '0' then some (['0'], rest)
    else if Text.isDecimalDigit c then
      let (digits, rest) := spanDigits rest
      some (c :: digits, rest)
    else none

/-- The fraction of a number, if there is one. -/
def readFraction : List Char -> Option (List Char × List Char)
  | '.' :: rest =>
    let (digits, rest) := spanDigits rest
    if digits.isEmpty then none else some ('.' :: digits, rest)
  | chars => some ([], chars)

/-- The exponent of a number, if there is one. -/
def readExponent : List Char -> Option (List Char × List Char)
  | [] => some ([], [])
  | c :: rest =>
    if c = 'e' ∨ c = 'E' then
      let (sign, rest) := match rest with
        | s :: others => if s = '+' ∨ s = '-' then ([s], others) else ([], rest)
        | [] => ([], [])
      let (digits, rest) := spanDigits rest
      if digits.isEmpty then none else some (c :: sign ++ digits, rest)
    else some ([], c :: rest)

/-- A number, as the characters it is written with. -/
def readNumber (chars : List Char) : Option (List Char × List Char) :=
  let (sign, unsigned) := match chars with
    | '-' :: rest => (['-'], rest)
    | _ => ([], chars)
  match readWhole unsigned with
  | none => none
  | some (whole, rest) =>
    match readFraction rest with
    | none => none
    | some (fraction, rest) =>
      (readExponent rest).map fun (exponent, rest) => (sign ++ whole ++ fraction ++ exponent, rest)

/-- Drop a word from the front. -/
def readWord (word : List Char) (chars : List Char) : Option (List Char) :=
  if word.isPrefixOf chars then some (chars.drop word.length) else none

mutual

/-- A value that starts at the first character. -/
def readValue : Nat -> List Char -> Option (Json × List Char)
  | 0, _ => none
  | _ + 1, [] => none
  | fuel + 1, '[' :: rest =>
    match skipBlank rest with
    | ']' :: rest => some (.array [], rest)
    | rest => (readItems fuel rest).map fun (items, rest) => (.array items, rest)
  | fuel + 1, '{' :: rest =>
    match skipBlank rest with
    | '}' :: rest => some (.object [], rest)
    | rest => (readMembers fuel rest).map fun (members, rest) => (.object members, rest)
  | _ + 1, '"' :: rest => (readUnits rest).map fun (units, rest) => (.string units, rest)
  | _ + 1, 'n' :: rest => (readWord ['u', 'l', 'l'] rest).map fun rest => (.null, rest)
  | _ + 1, 't' :: rest => (readWord ['r', 'u', 'e'] rest).map fun rest => (.bool true, rest)
  | _ + 1, 'f' :: rest =>
    (readWord ['a', 'l', 's', 'e'] rest).map fun rest => (.bool false, rest)
  | _ + 1, chars => (readNumber chars).map fun (digits, rest) => (.number digits, rest)

/-- The items of an array up to its end, at least one. -/
def readItems : Nat -> List Char -> Option (List Json × List Char)
  | 0, _ => none
  | fuel + 1, chars =>
    match readValue fuel chars with
    | none => none
    | some (item, rest) =>
      match skipBlank rest with
      | ',' :: rest =>
        (readItems fuel (skipBlank rest)).map fun (items, rest) => (item :: items, rest)
      | ']' :: rest => some ([item], rest)
      | _ => none

/-- The members of an object up to its end, at least one. -/
def readMembers : Nat -> List Char -> Option (List (List JsonUnit × Json) × List Char)
  | 0, _ => none
  | fuel + 1, '"' :: rest =>
    match readUnits rest with
    | none => none
    | some (key, rest) =>
      match skipBlank rest with
      | ':' :: rest =>
        match readValue fuel (skipBlank rest) with
        | none => none
        | some (value, rest) =>
          match skipBlank rest with
          | ',' :: rest =>
            (readMembers fuel (skipBlank rest)).map fun (members, rest) =>
              ((key, value) :: members, rest)
          | '}' :: rest => some ([(key, value)], rest)
          | _ => none
      | _ => none
  | _ + 1, _ => none

end

/-- The value of a whole text. -/
def ofText? (text : String) : Option Json :=
  let chars := text.toList
  match readValue (chars.length + 1) (skipBlank chars) with
  | some (value, rest) => if (skipBlank rest).isEmpty then some value else none
  | none => none

end Json
end SeedGrammar
