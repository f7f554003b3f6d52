import SeedGrammar.Pattern.Escape

namespace SeedGrammar

/-!
# Bracketed classes of a regular expression

Between brackets stand characters, ranges, escapes of classes, named ASCII
classes and further brackets; their union is the class, unless one of the
binary operators splits it.  Operators bind weaker than union and associate
to the left.  The reader keeps one frame for each open bracket, so it is a
loop over the characters and not a recursion over nested classes.
-/

/-- Operators between the classes inside brackets. -/
inductive BracketOp where
  | inter
  | diff
  | symmDiff
deriving DecidableEq, Repr

/-- A set of characters together with the number of brackets, unions and
operators that lie around its innermost element. -/
structure NestedSet where
  set : CharSet
  nesting : Nat

/-- An open bracket: whether it is negated, what stands in it since its last
operator, and that operator with its left operand.  Of the elements their
ranges are kept, their number and the greatest of their nestings. -/
structure Bracket where
  negated : Bool
  members : Text.CodeRanges
  count : Nat
  nesting : Nat
  pending : Option (BracketOp × NestedSet)

namespace Bracket

/-- A bracket of which nothing has been read. -/
def opened (negated : Bool) : Bracket := ⟨negated, [], 0, 0, none⟩

/-- Add an element. -/
def add (bracket : Bracket) (element : NestedSet) : Bracket :=
  { bracket with
    members := element.set.ranges ++ bracket.members
    count := bracket.count + 1
    nesting := max bracket.nesting element.nesting }

/-- Add a character. -/
def addChar (bracket : Bracket) (c : Char) : Bracket :=
  bracket.add ⟨.single c, 0⟩

/-- The union of the elements.  A single element is no union. -/
def elements (bracket : Bracket) : NestedSet :=
  ⟨.ofRanges bracket.members,
    if bracket.count ≤ 1 then bracket.nesting else bracket.nesting + 1⟩

/-- The set read so far. -/
def combined (ignoreCase : Bool) (bracket : Bracket) : NestedSet :=
  let right := bracket.elements
  match bracket.pending with
  | none => right
  | some (op, left) =>
    let leftSet := left.set.closeCaseIf ignoreCase
    let rightSet := right.set.closeCaseIf ignoreCase
    ⟨match op with
      | .inter => leftSet.inter rightSet
      | .diff => leftSet.diff rightSet
      | .symmDiff => leftSet.symmDiff rightSet,
      max left.nesting right.nesting + 1⟩

/-- Make the set read so far the left operand of an operator. -/
def operate (ignoreCase : Bool) (op : BracketOp) (bracket : Bracket) : Bracket :=
  { opened bracket.negated with pending := some (op, bracket.combined ignoreCase) }

/-- The set of a bracket that is closed. -/
def close (ignoreCase : Bool) (bracket : Bracket) : NestedSet :=
  let inside := bracket.combined ignoreCase
  ⟨(inside.set.closeCaseIf ignoreCase).complementIf bracket.negated, inside.nesting + 1⟩

/-- Dashes at the start of a bracket are literal. -/
def readDashes (flags : PatternFlags) : Nat -> Bracket -> List Char -> Bracket × List Char
  | fuel + 1, bracket, '-' :: rest =>
    readDashes flags fuel (bracket.addChar '-') (flags.skip rest)
  | _, bracket, chars => (bracket, chars)

/-- The start of a bracket: a caret negates it, dashes are literal, and so is
a closing bracket that comes first. -/
def readOpen (flags : PatternFlags) (chars : List Char) : Bracket × List Char :=
  let (negated, chars) := match flags.skip chars with
    | '^' :: rest => (true, flags.skip rest)
    | chars => (false, chars)
  let (bracket, after) :=
    readDashes flags (chars.length + 1) (opened negated) chars
  match chars with
  | ']' :: rest => (bracket.addChar ']', flags.skip rest)
  | _ => (bracket, after)

/-- A named ASCII class whose opening bracket has been read. -/
def readNamed (ignoreCase : Bool) : List Char -> Option (CharSet × List Char)
  | ':' :: rest =>
    let (negated, rest) := match rest with
      | '^' :: rest => (true, rest)
      | _ => (false, rest)
    match rest.dropWhile (· ≠ ':') with
    | ':' :: ']' :: after =>
      (CharSet.named? (String.ofList (rest.takeWhile (· ≠ ':')))).map fun set =>
        ((set.closeCaseIf ignoreCase).complementIf negated, after)
    | _ => none
  | _ => none

/-- One element: an escape, or a character that stands for itself. -/
def readElement (flags : PatternFlags) : List Char -> Option (PatternEscape × List Char)
  | [] => none
  | '\\' :: rest => PatternEscape.read flags rest
  | c :: rest => some (.literal c, rest)

/-- The set of an element that is not the end of a range. -/
def elementSet? : PatternEscape -> Option CharSet
  | .literal c => some (.single c)
  | .set set => some set
  | .assertion _ => none

/-- An element, or the range that it starts.  A dash is literal before a
closing bracket, and before another dash, which makes an operator. -/
def readItem (flags : PatternFlags) (chars : List Char) : Option (CharSet × List Char) :=
  match readElement flags chars with
  | none => none
  | some (first, rest) =>
    match flags.skip rest with
    | [] => none
    | '-' :: afterDash =>
      let next := flags.peek afterDash
      if next = some ']' ∨ next = some '-' then
        (elementSet? first).map fun set => (set, '-' :: afterDash)
      else
        match first, readElement flags (flags.skip afterDash) with
        | .literal low, some (.literal high, rest) =>
          if low ≤ high then some (.range low high, rest) else none
        | _, _ => none
    | rest => (elementSet? first).map fun set => (set, rest)

/-- Read up to the end of the outermost of the open brackets, the innermost
of which comes first. -/
def readFrom (flags : PatternFlags) :
    Nat -> Bracket -> List Bracket -> List Char -> Option (NestedSet × List Char)
  | 0, _, _, _ => none
  | fuel + 1, bracket, outer, chars =>
    match flags.skip chars with
    | [] => none
    | '[' :: rest =>
      match readNamed flags.ignoreCase rest with
      | some (set, rest) => readFrom flags fuel (bracket.add ⟨set, 0⟩) outer rest
      | none =>
        let (inner, rest) := readOpen flags rest
        readFrom flags fuel inner (bracket :: outer) rest
    | ']' :: rest =>
      let closed := bracket.close flags.ignoreCase
      match outer with
      | [] => some (closed, rest)
      | parent :: outer => readFrom flags fuel (parent.add closed) outer rest
    | '&' :: '&' :: rest =>
      readFrom flags fuel (bracket.operate flags.ignoreCase .inter) outer rest
    | '-' :: '-' :: rest =>
      readFrom flags fuel (bracket.operate flags.ignoreCase .diff) outer rest
    | '~' :: '~' :: rest =>
      readFrom flags fuel (bracket.operate flags.ignoreCase .symmDiff) outer rest
    | chars =>
      match readItem flags chars with
      | some (set, rest) => readFrom flags fuel (bracket.add ⟨set, 0⟩) outer rest
      | none => none

/-- The set whose opening bracket has been read. -/
def read (flags : PatternFlags) (chars : List Char) : Option (NestedSet × List Char) :=
  let (bracket, rest) := readOpen flags chars
  readFrom flags (rest.length + 1) bracket [] rest

end Bracket
end SeedGrammar
