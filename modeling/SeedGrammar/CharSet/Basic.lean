import SeedGrammar.Text.CodeRanges
import SeedGrammar.Text.Utf8

namespace SeedGrammar

/-!
# Sets of characters

A set of characters is kept as ranges of code points in one normal form:
ascending, with at least one code point between neighbours, and without the
surrogates, which are no characters.  Every operation ends in `ofRanges`,
which restores that form, so two sets with the same members are the same
list of ranges.
-/

/-- A set of characters, as inclusive ranges of code points. -/
structure CharSet where
  ranges : Text.CodeRanges
deriving DecidableEq, Repr

namespace CharSet

/-- The greatest code point. -/
def maxCode : Nat := 0x10FFFF

/-- The first surrogate. -/
def surrogateFirst : Nat := 0xD800

/-- The last surrogate. -/
def surrogateLast : Nat := 0xDFFF

/-- The order in which ranges are merged: by lower end, then by upper end. -/
def rangeLe (first second : Nat × Nat) : Bool :=
  first.1 < second.1 || (first.1 == second.1 && first.2 ≤ second.2)

/-- Extend a current range by those that overlap it or touch it, and go on
with the first that does neither. -/
def absorb : Nat × Nat -> Text.CodeRanges -> Text.CodeRanges
  | current, [] => [current]
  | current, next :: rest =>
    if next.1 ≤ current.2 + 1 then absorb (current.1, max current.2 next.2) rest
    else current :: absorb next rest

/-- Join the ranges of an ascending list that overlap or touch. -/
def merge : Text.CodeRanges -> Text.CodeRanges
  | [] => []
  | range :: rest => absorb range rest

/-- What is left of a range without the surrogates. -/
def withoutSurrogates (range : Nat × Nat) : Text.CodeRanges :=
  if range.2 < surrogateFirst || surrogateLast < range.1 then [range]
  else
    (if range.1 < surrogateFirst then [(range.1, surrogateFirst - 1)] else []) ++
      (if surrogateLast < range.2 then [(surrogateLast + 1, range.2)] else [])

/-- The set that holds the characters of some range. -/
def ofRanges (ranges : Text.CodeRanges) : CharSet :=
  ⟨(merge (ranges.mergeSort rangeLe)).flatMap withoutSurrogates⟩

/-- The set without members. -/
def empty : CharSet := ⟨[]⟩

/-- The characters between two given ones, which may come in either order. -/
def range (first second : Char) : CharSet :=
  ofRanges [(min first.toNat second.toNat, max first.toNat second.toNat)]

/-- The set of the characters in a list. -/
def ofChars (chars : List Char) : CharSet :=
  ofRanges (chars.map fun c => (c.toNat, c.toNat))

/-- Membership.  The ranges are in order, so they are searched by halving. -/
def contains (set : CharSet) (c : Char) : Bool :=
  set.ranges.halve c.toNat set.ranges.length

/-- Whether there are no members. -/
def isEmpty (set : CharSet) : Bool :=
  set.ranges.isEmpty

/-- The characters of either set. -/
def union (first second : CharSet) : CharSet :=
  ofRanges (first.ranges ++ second.ranges)

/-- The code points from `next` on that no range of an ascending list
holds. -/
def gaps : Nat -> Text.CodeRanges -> Text.CodeRanges
  | next, [] => if next ≤ maxCode then [(next, maxCode)] else []
  | next, range :: rest =>
    (if next < range.1 then [(next, range.1 - 1)] else []) ++ gaps (range.2 + 1) rest

/-- The characters that are not in the set. -/
def complement (set : CharSet) : CharSet :=
  ofRanges (gaps 0 set.ranges)

/-- The ranges with their ends as characters. -/
def charRanges (set : CharSet) : List (Char × Char) :=
  set.ranges.filterMap fun range =>
    match Text.scalar? range.1, Text.scalar? range.2 with
    | some first, some last => some (first, last)
    | _, _ => none

end CharSet
end SeedGrammar
