import SeedGrammar.Pattern.Bracket
import SeedGrammar.Pattern.Tree
import SeedGrammar.Unicode.Letter
import SeedGrammar.Unicode.Number

namespace SeedGrammar

/-!
# Tokens of a regular expression

A regular expression is first cut into tokens.  Flags are resolved here,
since they decide what is a blank, a comment and a class: the scanner keeps
the flags in force and those to return to at the end of each open group.
Group numbers are given in the order of the opening parentheses.
-/

/-- A token: an expression without operands, one end of a group, the bar
between branches, a repetition of what stands before it, or a change of
flags. -/
inductive PatternToken where
  | operand (tree : PatternTree)
  | groupStart (index : Option Nat)
  | groupEnd
  | bar
  | times (bounds : RepeatBounds) (greedy : Bool)
  | flagChange

/-- What the scanner knows at some place: the flags, the flags outside each
open group, the number of groups so far, and their names. -/
structure PatternScanner where
  flags : PatternFlags
  outer : List PatternFlags
  groups : Nat
  names : List String

namespace PatternScanner

/-- The scanner at the start of an expression. -/
def initial : PatternScanner := ⟨PatternFlags.initial, [], 0, []⟩

/-- Enter a group inside which the given flags hold. -/
def enter (scanner : PatternScanner) (flags : PatternFlags) : PatternScanner :=
  { scanner with flags := flags, outer := scanner.flags :: scanner.outer }

/-- Enter a numbered group. -/
def enterNumbered (scanner : PatternScanner) : PatternToken × PatternScanner :=
  let index := scanner.groups + 1
  (.groupStart (some index), { scanner.enter scanner.flags with groups := index })

/-- Whether a character can stand in the name of a group. -/
def isNameChar (first : Bool) (c : Char) : Bool :=
  if first then c == '_' || Unicode.isAlphabetic c
  else c == '_' || c == '.' || c == '[' || c == ']' || Unicode.isAlphabetic c || Unicode.isNumber c

/-- Whether a text can name a group. -/
def isName : List Char -> Bool
  | [] => false
  | c :: rest => isNameChar true c && rest.all (isNameChar false)

/-- A group whose name starts here. -/
def readNamedGroup (scanner : PatternScanner) (chars : List Char) :
    Option (PatternToken × PatternScanner × List Char) :=
  let name := chars.takeWhile (· ≠ '>')
  match chars.dropWhile (· ≠ '>') with
  | [] => none
  | _ :: rest =>
    if isName name && !scanner.names.contains (String.ofList name) then
      let (token, entered) := scanner.enterNumbered
      some (token, { entered with names := String.ofList name :: entered.names }, rest)
    else none

/-- A list of flags: a group of its own, or a change for the rest of the
group around it. -/
def readFlagGroup (scanner : PatternScanner) (chars : List Char) :
    Option (PatternToken × PatternScanner × List Char) :=
  match scanner.flags.read [] chars with
  | some (flags, _, ':' :: rest) => some (.groupStart none, scanner.enter flags, rest)
  | some (flags, seen, _ :: rest) =>
    if seen.isEmpty then none else some (.flagChange, { scanner with flags := flags }, rest)
  | _ => none

/-- A group whose parenthesis has been read.  Conditions on the text around
a position are not groups, and are refused. -/
def readGroup (scanner : PatternScanner) (chars : List Char) :
    Option (PatternToken × PatternScanner × List Char) :=
  match scanner.flags.skip chars with
  | '?' :: '=' :: _ => none
  | '?' :: '!' :: _ => none
  | '?' :: '<' :: '=' :: _ => none
  | '?' :: '<' :: '!' :: _ => none
  | '?' :: 'P' :: '<' :: rest => scanner.readNamedGroup rest
  | '?' :: '<' :: rest => scanner.readNamedGroup rest
  | '?' :: rest => scanner.readFlagGroup rest
  | rest =>
    let (token, entered) := scanner.enterNumbered
    some (token, entered, rest)

/-- The digits of a number, with whatever is ignored between them. -/
def readDigits (flags : PatternFlags) : Nat -> List Char -> List Char × List Char
  | fuel + 1, c :: rest =>
    if Text.isDecimalDigit c then
      let (digits, rest) := readDigits flags fuel (flags.skip rest)
      (c :: digits, rest)
    else ([], c :: rest)
  | _, chars => ([], chars)

/-- A number in the bounds of a repetition, between blanks. -/
def readCount (flags : PatternFlags) (chars : List Char) : Option (Nat × List Char) :=
  let start := chars.dropWhile Unicode.isBlank
  let (read, rest) := readDigits flags (start.length + 1) start
  if read.isEmpty then none
  else
    match Text.ofDecimal? read with
    | some value =>
      if value < 0x100000000 then some (value, rest.dropWhile Unicode.isBlank) else none
    | none => none

/-- A repetition, and whether a question mark after it turns its greed
around. -/
def readGreed (scanner : PatternScanner) (bounds : RepeatBounds) (chars : List Char) :
    PatternToken × PatternScanner × List Char :=
  match chars with
  | '?' :: rest => (.times bounds scanner.flags.swapGreed, scanner, rest)
  | _ => (.times bounds (!scanner.flags.swapGreed), scanner, chars)

/-- A counted repetition whose brace has been read. -/
def readCounted (scanner : PatternScanner) (chars : List Char) :
    Option (PatternToken × PatternScanner × List Char) :=
  let skip := scanner.flags.skip
  match readCount scanner.flags (skip chars) with
  | none => none
  | some (min, rest) =>
    match rest with
    | '}' :: rest => some (scanner.readGreed ⟨min, some min⟩ (skip rest))
    | ',' :: rest =>
      match skip rest with
      | '}' :: rest => some (scanner.readGreed ⟨min, none⟩ (skip rest))
      | rest =>
        match readCount scanner.flags rest with
        | some (max, '}' :: rest) =>
          if min ≤ max then some (scanner.readGreed ⟨min, some max⟩ (skip rest)) else none
        | _ => none
    | _ => none

/-- What an escape or a plain character stands for. -/
def simple (flags : PatternFlags) : PatternEscape -> PatternTree
  | .literal c => .element (if flags.ignoreCase then .anyCase c else .single c) 0
  | .set set => .element set 0
  | .assertion assertion => .assert assertion

/-- The token that starts with a character. -/
def readToken (scanner : PatternScanner) (c : Char) (rest : List Char) :
    Option (PatternToken × PatternScanner × List Char) :=
  let flags := scanner.flags
  if c = '(' then scanner.readGroup rest
  else if c = ')' then
    match scanner.outer with
    | [] => none
    | before :: outer => some (.groupEnd, { scanner with flags := before, outer := outer }, rest)
  else if c = '|' then some (.bar, scanner, rest)
  else if c = '[' then
    (Bracket.read flags rest).map fun (closed, rest) =>
      (.operand (.element closed.set closed.nesting), scanner, rest)
  else if c = '?' then some (scanner.readGreed ⟨0, some 1⟩ rest)
  else if c = '*' then some (scanner.readGreed ⟨0, none⟩ rest)
  else if c = '+' then some (scanner.readGreed ⟨1, none⟩ rest)
  else if c = '{' then scanner.readCounted rest
  else if c = '\\' then
    (PatternEscape.read flags rest).map fun (escape, rest) =>
      (.operand (simple flags escape), scanner, rest)
  else if c = '.' then
    let excluded := if flags.dotAll then CharSet.empty else CharSet.single '\n'
    some (.operand (.element excluded.complement 0), scanner, rest)
  else if c = '^' then
    let assertion := if flags.multiLine then Assertion.lineStart else Assertion.textStart
    some (.operand (.assert assertion), scanner, rest)
  else if c = '$' then
    let assertion := if flags.multiLine then Assertion.lineEnd else Assertion.textEnd
    some (.operand (.assert assertion), scanner, rest)
  else some (.operand (simple flags (.literal c)), scanner, rest)

/-- The tokens up to the end of the text, after those read before, the
latest of which comes first. -/
def readTokens : Nat -> PatternScanner -> List PatternToken -> List Char ->
    Option (List PatternToken)
  | 0, _, _, _ => none
  | fuel + 1, scanner, before, chars =>
    match scanner.flags.skip chars with
    | [] => some before.reverse
    | c :: rest =>
      match scanner.readToken c rest with
      | some (token, scanner, rest) => readTokens fuel scanner (token :: before) rest
      | none => none

/-- The tokens of a whole text. -/
def tokens? (chars : List Char) : Option (List PatternToken) :=
  readTokens (chars.length + 1) initial [] chars

end PatternScanner
end SeedGrammar
