import SeedGrammar.Text.Digits
import SeedGrammar.Unicode.Hidden

namespace SeedGrammar
namespace Text

/-!
# Quoted text

Descriptions and messages show a text between double quotes and a character
between single quotes.  The reader should be able to tell exactly which
characters are meant, so the delimiter, the backslash and everything without
a visible form of its own are written as escapes.  The quote that is not the
delimiter stays as it is.
-/

/-- The escape that names a character by its code point. -/
def codeEscape (c : Char) : String :=
  "\\u\x7b" ++ lowerHex c.toNat ++ "\x7d"

/-- One character as it stands inside quotes of the given kind. -/
def quoteChar (delimiter : Char) (c : Char) : String :=
  if c = '\x00' then "\\0"
  else if c = '\t' then "\\t"
  else if c = '\n' then "\\n"
  else if c = '\r' then "\\r"
  else if c = '\\' then "\\\\"
  else if c = delimiter then "\\" ++ delimiter.toString
  else if Unicode.isHidden c then codeEscape c
  else c.toString

/-- A text between double quotes. -/
def quoted (text : String) : String :=
  "\"" ++ String.join (text.toList.map (quoteChar '"')) ++ "\""

/-- A character between single quotes. -/
def quotedChar (c : Char) : String :=
  "'" ++ quoteChar '\'' c ++ "'"

/-- A list of shown values between brackets, as in `[1, 2]`. -/
def bracketed (items : List String) : String :=
  "[" ++ String.intercalate ", " items ++ "]"

end Text
end SeedGrammar
