import SeedGrammar.Pattern.Automaton
import SeedGrammar.Pattern.Normal

namespace SeedGrammar

/-!
# The memory that a regular expression takes

An expression is laid out twice, as an automaton that reads forward and as
one that reads backward, and both have to fit.  Counted repetitions are
written out.  Only the forward automaton records groups.  An automaton that
may start anywhere skips any number of bytes first.
-/

namespace NormalPattern

mutual

/-- The least number of characters of a match.  A class without members has
none, and neither has what needs it. -/
def minLength? : NormalPattern -> Option Nat
  | empty => some 0
  | literal chars => some chars.length
  | cls members => if members.set.isEmpty then none else some 1
  | assert _ => some 0
  | group _ body => body.minLength?
  | times bounds _ body => body.minLength?.map (bounds.min * ·)
  | seq items => minLengthOfAll? items
  | alt branches => minLengthOfSome? branches

/-- The least number of characters of a match of all expressions in turn. -/
def minLengthOfAll? : List NormalPattern -> Option Nat
  | [] => some 0
  | pattern :: rest => do return (← pattern.minLength?) + (← minLengthOfAll? rest)

/-- The least number of characters of a match of one of the expressions. -/
def minLengthOfSome? : List NormalPattern -> Option Nat
  | [] => none
  | [pattern] => pattern.minLength?
  | pattern :: rest => do return min (← pattern.minLength?) (← minLengthOfSome? rest)

end

mutual

/-- Whether every match begins at the start of the text. -/
def beginsText : NormalPattern -> Bool
  | assert assertion => assertion == .textStart
  | group _ body => body.beginsText
  | times bounds _ body => bounds.min != 0 && body.beginsText
  | seq items => firstBeginsText items
  | alt branches => allBeginText branches
  | _ => false

/-- Whether one of the first expressions begins at the start of the text, and
all before it are empty. -/
def firstBeginsText : List NormalPattern -> Bool
  | [] => false
  | pattern :: rest => pattern.beginsText || (pattern.isZeroWidth && firstBeginsText rest)

/-- Whether all expressions begin at the start of the text. -/
def allBeginText : List NormalPattern -> Bool
  | [] => true
  | pattern :: rest => pattern.beginsText && allBeginText rest

end

mutual

/-- Whether every match ends at the end of the text. -/
def endsText : NormalPattern -> Bool
  | assert assertion => assertion == .textEnd
  | group _ body => body.endsText
  | times bounds _ body => bounds.min != 0 && body.endsText
  | seq items => lastEndsText items
  | alt branches => allEndText branches
  | _ => false

/-- Whether one of the last expressions ends at the end of the text, and all
after it are empty. -/
def lastEndsText : List NormalPattern -> Bool
  | [] => false
  | pattern :: rest => lastEndsText rest || (pattern.endsText && allZeroWidth rest)

/-- Whether all expressions end at the end of the text. -/
def allEndText : List NormalPattern -> Bool
  | [] => true
  | pattern :: rest => pattern.endsText && allEndText rest

end

/-- The bytes of a literal. -/
def literalBytes? : NormalPattern -> Option (List UInt8)
  | literal chars => some (chars.flatMap String.utf8EncodeChar)
  | _ => none

end NormalPattern

namespace AutomatonLayout

/-- Repeat a part after an end. -/
def again (part : AutomatonLayout AutomatonEnd) : Nat -> AutomatonEnd ->
    AutomatonLayout AutomatonEnd
  | 0, last => pure last
  | count + 1, last => do
    let next ← part
    goOn last
    again part count next

/-- Repeat a part exactly. -/
def exactly (part : AutomatonLayout AutomatonEnd) : Nat -> AutomatonLayout AutomatonEnd
  | 0 => do
    let _ ← step
    return .single
  | count + 1 => do again part count (← part)

/-- Repeat a part after an end, with a choice before each repetition. -/
def optionally (part : AutomatonLayout AutomatonEnd) : Nat -> AutomatonEnd ->
    AutomatonLayout AutomatonEnd
  | 0, last => pure last
  | count + 1, last => do
    let _ ← freeChoice 2
    let next ← part
    goOn last
    optionally part count next

/-- Repeat a part within bounds.  A part that always consumes can be entered
through the choice after it; any other needs a choice of its own in front. -/
def iterations (part : AutomatonLayout AutomatonEnd) (consumes : Bool) (bounds : RepeatBounds) :
    AutomatonLayout AutomatonEnd :=
  match bounds.min, bounds.max with
  | 0, some 1 => do
    let _ ← freeChoice 2
    goOn (← part)
    let _ ← step
    return .single
  | min, some max => do
    let last ← exactly part min
    if min = max then return last
    else
      let _ ← step
      goOn (← optionally part (max - min) last)
      return .single
  | 0, none => do
    if consumes then
      let _ ← freeChoice 1
      goOn (← part)
      return .choice
    else
      goOn (← part)
      let _ ← freeChoice 2
      let _ ← freeChoice 2
      let _ ← step
      return .single
  | 1, none => do
    goOn (← part)
    let _ ← freeChoice 1
    return .choice
  | min + 1, none => do
    goOn (← exactly part min)
    goOn (← part)
    let _ ← freeChoice 1
    return .choice

/-- The words of a list up to each empty one and after the last. -/
def chunks : List (List UInt8) -> List (List (List UInt8))
  | [] => [[]]
  | [] :: rest => [] :: chunks rest
  | word :: rest =>
    match chunks rest with
    | chunk :: others => (word :: chunk) :: others
    | [] => [[word]]

/-- Chunks that are empty count once at the start. -/
def dropEmpty : List (List (List UInt8)) -> List (List (List UInt8))
  | [] :: [] :: others => dropEmpty ([] :: others)
  | chunks => chunks

/-- Lay out the ways into a choice between words, which join where words
begin alike.  An empty word ends there, and words after it are not joined
with those before it, for those before it are preferred. -/
def words : Nat -> List (List UInt8) -> AutomatonLayout Unit
  | 0, _ => pure ()
  | length + 1, alternatives => do
    let parts := dropEmpty (chunks alternatives)
    parts.forM fun part => do
      let bytes := (part.filterMap List.head?).eraseDups
      bytes.forM fun byte => do
        let below := (part.filter (·.head? == some byte)).map List.tail
        if below.all List.isEmpty then pure () else words length below
      match bytes with
      | [] => pure ()
      | [_] => steps 1
      | _ => do
        let _ ← byteChoice bytes.length
    let _ ← freeChoice ((parts.filter (!·.isEmpty)).length + (parts.length - 1))

end AutomatonLayout

namespace NormalPattern

open AutomatonLayout

mutual

/-- Lay out an expression. -/
def layout (direction : ReadingDirection) : NormalPattern -> AutomatonLayout AutomatonEnd
  | empty => do
    steps 1
    return .single
  | literal chars => do
    steps (Text.byteLength chars)
    return .single
  | cls members => ofClass direction members
  | assert _ => do
    steps 1
    return .single
  | group _ body =>
    match direction with
    | .forward => do
      steps 1
      goOn (← body.layout direction)
      steps 1
      return .single
    | .backward => body.layout direction
  | times bounds _ body =>
    iterations (body.layout direction) (body.minLength?.any (0 < ·)) bounds
  | seq items => layoutInTurn direction items
  | alt branches => do
    match branches.mapM literalBytes? with
    | some alternatives =>
      steps 1
      let alternatives := match direction with
        | .forward => alternatives
        | .backward => alternatives.map List.reverse
      words (alternatives.foldl (fun longest word => max longest word.length) 0) alternatives
    | none => layoutBranches direction branches.length 0 branches
    return .single

/-- Lay out expressions one after the other, in the order of reading. -/
def layoutInTurn (direction : ReadingDirection) :
    List NormalPattern -> AutomatonLayout AutomatonEnd
  | [] => do
    steps 1
    return .single
  | [pattern] => pattern.layout direction
  | pattern :: rest =>
    match direction with
    | .forward => do
      goOn (← pattern.layout direction)
      layoutInTurn direction rest
    | .backward => do
      goOn (← layoutInTurn direction rest)
      pattern.layout direction

/-- Lay out the branches of a choice.  The choice itself and the node where
its branches meet come after the second branch. -/
def layoutBranches (direction : ReadingDirection) (count : Nat) :
    Nat -> List NormalPattern -> AutomatonLayout Unit
  | _, [] => pure ()
  | index, pattern :: rest => do
    goOn (← pattern.layout direction)
    if index = 1 then
      let _ ← freeChoice count
      steps 1
    layoutBranches direction count (index + 1) rest

end

/-- Whether an automaton that reads in a direction can match at the place
where it starts only. -/
def isAnchored (direction : ReadingDirection) (pattern : NormalPattern) : Bool :=
  match direction with
  | .forward => pattern.beginsText
  | .backward => pattern.endsText

/-- Lay out the automaton of an expression, the whole of which is group
zero. -/
def automaton (direction : ReadingDirection) (pattern : NormalPattern) :
    AutomatonLayout Unit := do
  if pattern.isAnchored direction then steps 1
  else
    let _ ← freeChoice 2
    steps 1
    let _ ← byteChoice 1
  goOn (← (group 0 pattern).layout direction)
  steps 1

/-- Whether the automata of an expression fit into the memory. -/
def fits (pattern : NormalPattern) : Bool :=
  [ReadingDirection.forward, .backward].all fun direction =>
    ((pattern.automaton direction).run AutomatonSize.initial).isSome

end NormalPattern
end SeedGrammar
