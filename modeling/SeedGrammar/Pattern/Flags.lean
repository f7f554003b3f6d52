import SeedGrammar.Unicode.Blank

namespace SeedGrammar

/-!
# Flags of a regular expression

Flags are switched on and off by letters inside the expression and hold up
to the end of the group they stand in.  Each letter may occur once in a list
of flags, on either side of a single dash, and the dash needs a letter after
it.  Text is always Unicode, so that flag can only be confirmed, and lines
always end with a line feed alone.
-/

/-- The flags in force at some place of an expression. -/
structure PatternFlags where
  ignoreCase : Bool
  multiLine : Bool
  dotAll : Bool
  swapGreed : Bool
  extended : Bool
deriving DecidableEq, Repr

namespace PatternFlags

/-- The flags at the start of an expression: none is on. -/
def initial : PatternFlags := ⟨false, false, false, false, false⟩

/-- Switch the flag of a letter. -/
def set? (flags : PatternFlags) (letter : Char) (value : Bool) : Option PatternFlags :=
  if letter = 'i' then some { flags with ignoreCase := value }
  else if letter = 'm' then some { flags with multiLine := value }
  else if letter = 's' then some { flags with dotAll := value }
  else if letter = 'U' then some { flags with swapGreed := value }
  else if letter = 'x' then some { flags with extended := value }
  else if letter = 'u' ∧ value then some flags
  else none

/-- Read a list of flags up to the colon or parenthesis after it.  `seen`
holds what was read before, the latest first. -/
def read (flags : PatternFlags) (seen : List Char) :
    List Char -> Option (PatternFlags × List Char × List Char)
  | [] => none
  | c :: rest =>
    if c = ':' ∨ c = ')' then
      if seen.head? = some '-' then none else some (flags, seen, c :: rest)
    else if c ∈ seen then none
    else if c = '-' then read flags (c :: seen) rest
    else
      match flags.set? c (!seen.contains '-') with
      | some flags => read flags (c :: seen) rest
      | none => none

/-- Drop blanks and comments; a comment runs up to the end of its line. -/
def dropComments : Bool -> List Char -> List Char
  | _, [] => []
  | true, c :: rest => if c = '\n' then dropComments false rest else dropComments true rest
  | false, c :: rest =>
    if Unicode.isBlank c then dropComments false rest
    else if c = '#' then dropComments true rest
    else c :: rest

/-- Drop what the extended form of an expression ignores. -/
def skip (flags : PatternFlags) (chars : List Char) : List Char :=
  if flags.extended then dropComments false chars else chars

/-- The next character, whatever the extended form ignores in front of it.
Nothing is consumed yet, so a comment is not passed over as a whole: looking
ahead goes beyond blanks and beyond the sign that starts a comment, but not
beyond the text of the comment. -/
def peek (flags : PatternFlags) (chars : List Char) : Option Char :=
  if flags.extended then
    match chars.dropWhile Unicode.isBlank with
    | '#' :: rest => (rest.dropWhile Unicode.isBlank).head?
    | rest => rest.head?
  else chars.head?

end PatternFlags
end SeedGrammar
