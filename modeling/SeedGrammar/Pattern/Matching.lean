import SeedGrammar.Pattern.Program
import SeedGrammar.Unicode.Word

namespace SeedGrammar

/-!
# Matching a regular expression

Among all matches the one that starts first counts, and among those the one
that the program prefers: earlier alternatives before later ones, greedy
repetitions long before short, lazy ones short before long.

The matcher passes over the text once.  At every position it holds the
threads that are still alive in order of preference, and of two threads that
have reached one instruction there it keeps only the preferred one, since
what follows is the same for both.  A thread that accepts ends all threads
after it; those before it may still find a match that is preferred to it.
Since a position keeps at most one thread for each instruction, a repetition
cannot go on without consuming.

A grammar knows nothing of an expression but the first match that it finds in a text.
Instructions are a way to find it.
-/

/-- A position in a text: the character before it, the characters after it
and the number of characters passed. -/
structure Cursor where
  previous : Option Char
  rest : List Char
  offset : Nat
deriving Repr

namespace Cursor

/-- Whether the character before a position is a word character. -/
def afterWord (cursor : Cursor) : Bool :=
  cursor.previous.any Unicode.isWord

/-- Whether the character after a position is a word character. -/
def beforeWord (cursor : Cursor) : Bool :=
  cursor.rest.head?.any Unicode.isWord

end Cursor

/-- Whether an assertion holds at a position. -/
def Assertion.holds : Assertion -> Cursor -> Bool
  | textStart, cursor => cursor.previous.isNone
  | textEnd, cursor => cursor.rest.isEmpty
  | lineStart, cursor => cursor.previous.isNone || cursor.previous == some '\n'
  | lineEnd, cursor => cursor.rest.isEmpty || cursor.rest.head? == some '\n'
  | wordBoundary, cursor => cursor.afterWord != cursor.beforeWord
  | noWordBoundary, cursor => cursor.afterWord == cursor.beforeWord
  | wordStart, cursor => !cursor.afterWord && cursor.beforeWord
  | wordEnd, cursor => cursor.afterWord && !cursor.beforeWord

/-- A way through a program: the instruction that it has reached, and the
positions that it has marked, the latest first. -/
structure Thread where
  place : Nat
  marks : List (Nat × Nat)
deriving Repr

/-- The threads at one position in order of preference, and whether each
instruction has been reached there. -/
structure Frontier where
  reached : Array Bool
  threads : Array Thread

namespace AssembledProgram

/-- A position that no thread has reached. -/
def unreached (program : AssembledProgram) : Frontier :=
  ⟨Array.replicate program.code.size false, #[]⟩

/-- Follow threads to the instructions that consume or accept, the preferred
one first.  An instruction that has been reached is not followed again, and
any other adds at most two threads, so the number of steps is bounded by the
number of threads at first and twice the number of instructions. -/
def spread (program : AssembledProgram) (cursor : Cursor) :
    Nat -> List Thread -> Frontier -> Frontier
  | 0, _, frontier => frontier
  | _ + 1, [], frontier => frontier
  | steps + 1, thread :: waiting, frontier =>
    if frontier.reached.getD thread.place true then
      program.spread cursor steps waiting frontier
    else
      let frontier :=
        { frontier with reached := frontier.reached.setIfInBounds thread.place true }
      match program.code[thread.place]? with
      | none => program.spread cursor steps waiting frontier
      | some (.one _ _) | some .accept =>
        program.spread cursor steps waiting
          { frontier with threads := frontier.threads.push thread }
      | some (.assert assertion next) =>
        if assertion.holds cursor then
          program.spread cursor steps ({ thread with place := next } :: waiting) frontier
        else program.spread cursor steps waiting frontier
      | some (.mark slot next) =>
        program.spread cursor steps (⟨next, (slot, cursor.offset) :: thread.marks⟩ :: waiting)
          frontier
      | some (.split preferred other) =>
        program.spread cursor steps
          ({ thread with place := preferred } :: { thread with place := other } :: waiting)
          frontier

/-- Add a thread to a position. -/
def enter (program : AssembledProgram) (cursor : Cursor) (thread : Thread)
    (frontier : Frontier) : Frontier :=
  program.spread cursor (2 * program.code.size + 2) [thread] frontier

/-- Let a thread consume a character, after which the text is at the given
position. -/
def consume (program : AssembledProgram) (c : Char) (after : Cursor) (frontier : Frontier)
    (thread : Thread) : Frontier :=
  match program.code[thread.place]? with
  | some (.one set next) =>
    if set.contains c then program.enter after { thread with place := next } frontier else frontier
  | _ => frontier

/-- Whether a thread has come to the end of the program. -/
def accepts (program : AssembledProgram) (thread : Thread) : Bool :=
  match program.code[thread.place]? with
  | some .accept => true
  | _ => false

/-- Pass over a text with the threads at its start and the best match so
far, given as its end and its marks.  Until there is a match, each position
also starts a thread of its own, to which all earlier ones are preferred. -/
def search (program : AssembledProgram) : List Char -> Option Char -> Nat -> Frontier ->
    Option (Nat × List (Nat × Nat)) -> Option (Nat × List (Nat × Nat))
  | rest, previous, offset, frontier, best =>
    let frontier :=
      if best.isSome then frontier
      else program.enter ⟨previous, rest, offset⟩ ⟨program.entry, []⟩ frontier
    let threads := frontier.threads.toList
    let alive := threads.takeWhile fun thread => !program.accepts thread
    let best := ((threads.find? program.accepts).map fun thread => (offset, thread.marks)).or best
    match rest with
    | [] => best
    | c :: rest =>
      if alive.isEmpty && (best.isSome || program.anchored) then best
      else
        program.search rest (some c) (offset + 1)
          (alive.foldl (program.consume c ⟨some c, rest, offset + 1⟩) program.unreached) best

end AssembledProgram

/-- The texts of the groups of a match, the whole match first.  A group that
took no part has no text. -/
structure Captures where
  groups : List (Option String)
deriving DecidableEq, Repr

namespace Captures

/-- The whole match. -/
def text (captures : Captures) : String :=
  (captures.groups.head?.join).getD ""

/-- The text of a numbered group, if it took part. -/
def group? (captures : Captures) (index : Nat) : Option String :=
  (captures.groups[index]?).join

end Captures

/-- A match: how many characters lie before its end, and its groups. -/
structure PatternMatch where
  stop : Nat
  captures : Captures
deriving DecidableEq, Repr

namespace AssembledProgram

/-- The text between the marks of a numbered group, if it took part. -/
def groupText (text : List Char) (marks : List (Nat × Nat)) (index : Nat) : Option String := do
  let start ← marks.lookup (2 * index)
  let stop ← marks.lookup (2 * index + 1)
  return String.ofList ((text.drop start).take (stop - start))

/-- The first match in a text. -/
def find? (program : AssembledProgram) (text : List Char) : Option PatternMatch :=
  (program.search text none 0 program.unreached none).map fun (stop, marks) =>
    ⟨stop, ⟨(List.range program.groupCount).map (groupText text marks)⟩⟩

end AssembledProgram

/-- An expression as it is matched: whatever finds its first match in a text. -/
structure PatternProgram where
  find? : List Char -> Option PatternMatch

/-- Whether there is a match somewhere in a text. -/
def PatternProgram.isMatch (program : PatternProgram) (text : List Char) : Bool :=
  (program.find? text).isSome

/-- What finds the first match of an expression. -/
def Pattern.toProgram (pattern : Pattern) : PatternProgram :=
  ⟨pattern.assembled.find?⟩

end SeedGrammar
