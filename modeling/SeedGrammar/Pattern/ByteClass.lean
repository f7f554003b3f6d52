import SeedGrammar.CharSet.Basic
import SeedGrammar.Text.ByteRanges

namespace SeedGrammar

/-!
# Sets of characters as sets of byte sequences

A reader of bytes takes a character as a sequence of byte ranges.  Read from
the front, the sequences of a set form a tree, in which sequences with the
same first ranges share their way.
-/

/-- The ways from a node of a tree of byte ranges: the first of them, what
lies below it, and the ways beside it.  Below the last range of a sequence
there is nothing. -/
inductive ByteTree where
  | nil
  | way (range : Text.ByteRange) (below beside : ByteTree)
deriving Repr

namespace ByteTree

/-- The tree of ascending sequences up to some length. -/
def ofSequences : Nat -> List (List Text.ByteRange) -> ByteTree
  | 0, _ => nil
  | length + 1, sequences =>
    (sequences.splitBy fun first second => first.head? == second.head?).foldr
      (fun group beside =>
        match group with
        | (range :: _) :: _ => way range (ofSequences length (group.map List.tail)) beside
        | _ => beside)
      nil

end ByteTree

/-- A set of characters with its byte sequences, as a list and as a tree. -/
structure ByteClass where
  set : CharSet
  sequences : List (List Text.ByteRange)
  tree : ByteTree

namespace ByteClass

/-- The byte sequences of a set, each of which has at most four ranges. -/
def ofSet (set : CharSet) : ByteClass :=
  let sequences := set.ranges.flatMap Text.byteSequences
  ⟨set, sequences, ByteTree.ofSequences 4 sequences⟩

/-- Whether every sequence is a single byte. -/
def isAscii (cls : ByteClass) : Bool :=
  cls.sequences.all (·.length ≤ 1)

end ByteClass
end SeedGrammar
