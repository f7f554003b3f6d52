import SeedGrammar.Pattern.Basic

namespace SeedGrammar

/-!
# Programs of regular expressions

To be matched, an expression is laid out as a list of instructions, each of
which names the one that follows by its number.  Where there are two ways to
go on, the preferred one is named first, so greediness and the order of
alternatives are a matter of layout alone.

The layout runs from the end to the start: an expression is assembled for a
given successor, and assembling it gives the number of its own first
instruction.  Only a repetition without an upper bound has to return to a
place that has not been laid out yet, and reserves that place first.
-/

/-- One instruction.  Numbers name the instructions that follow. -/
inductive Instruction where
  | one (set : CharSet) (next : Nat)
  | assert (assertion : Assertion) (next : Nat)
  | mark (slot next : Nat)
  | split (preferred other : Nat)
  | accept
deriving DecidableEq, Repr

/-- A regular expression laid out for matching.  An anchored program can
match at the start of a text only. -/
structure AssembledProgram where
  code : Array Instruction
  entry : Nat
  groupCount : Nat
  anchored : Bool
deriving DecidableEq, Repr

/-- Instructions laid out so far. -/
abbrev Assembly := StateM (Array Instruction)

namespace Assembly

/-- Lay out an instruction and give its number. -/
def emit (instruction : Instruction) : Assembly Nat :=
  modifyGet fun code => (code.size, code.push instruction)

/-- Lay out a place for an instruction that is not known yet. -/
def reserve : Assembly Nat :=
  emit .accept

/-- Fill a reserved place. -/
def fill (place : Nat) (instruction : Instruction) : Assembly Unit :=
  modify fun code => code.setIfInBounds place instruction

/-- A choice between one more iteration and none. -/
def fork (greedy : Bool) (again leave : Nat) : Instruction :=
  if greedy then .split again leave else .split leave again

/-- Exactly a number of iterations. -/
def exactly (body : Nat -> Assembly Nat) : Nat -> Nat -> Assembly Nat
  | 0, next => pure next
  | count + 1, next => do exactly body count (← body next)

/-- At most a number of iterations, each of which may be the last.  The last
one is laid out first: `further` is where its predecessor goes on, while
`next` is where all of them leave. -/
def upTo (body : Nat -> Assembly Nat) (greedy : Bool) (next : Nat) : Nat -> Nat -> Assembly Nat
  | 0, further => pure further
  | count + 1, further => do
    let again ← body further
    let choice ← emit (fork greedy again next)
    upTo body greedy next count choice

/-- One iteration or more: the number of the first iteration and that of the
choice after each. -/
def oneOrMore (body : Nat -> Assembly Nat) (greedy : Bool) (next : Nat) :
    Assembly (Nat × Nat) := do
  let choice ← reserve
  let again ← body choice
  fill choice (fork greedy again next)
  return (again, choice)

/-- A number of iterations within bounds.  A body that always consumes may
be entered through the choice after it; any other has a choice of its own in
front, so that an empty iteration ends the repetition and is not mistaken
for none. -/
def iterations (body : Nat -> Assembly Nat) (consumes : Bool) (bounds : RepeatBounds)
    (greedy : Bool) (next : Nat) : Assembly Nat :=
  match bounds.max, bounds.min with
  | some max, min => do exactly body min (← upTo body greedy next (max - min) next)
  | none, 0 => do
    let (again, choice) ← oneOrMore body greedy next
    if consumes then return choice else emit (fork greedy again next)
  | none, min + 1 => do
    let (again, _) ← oneOrMore body greedy next
    exactly body min again

end Assembly

namespace Pattern

open Assembly in
/-- Lay out an expression in front of its successor. -/
def assemble : Pattern -> Nat -> Assembly Nat
  | empty, next => pure next
  | one set, next => emit (.one set next)
  | assert assertion, next => emit (.assert assertion next)
  | group index body, next => do
    let close ← emit (.mark (2 * index + 1) next)
    let inner ← body.assemble close
    emit (.mark (2 * index) inner)
  | seq first second, next => do first.assemble (← second.assemble next)
  | alt first second, next => do
    let preferred ← first.assemble next
    let other ← second.assemble next
    emit (.split preferred other)
  | times bounds greedy body, next =>
    iterations body.assemble body.consumes bounds greedy next

/-- The instructions of an expression, the whole of which is group zero. -/
def assembled (pattern : Pattern) : AssembledProgram :=
  let (entry, code) := ((Assembly.emit .accept).bind (group 0 pattern).assemble).run #[]
  ⟨code, entry, pattern.groupCount, pattern.isAnchored⟩

end Pattern
end SeedGrammar
