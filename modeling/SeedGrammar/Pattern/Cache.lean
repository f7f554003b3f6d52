import SeedGrammar.Pattern.Reader
import SeedGrammar.Pattern.Matching

namespace SeedGrammar

/-!
# Anchored expressions and their cache

A grammar runs its expressions at the current position, so each source is
wrapped into a group after an anchor, and it is the wrapped text that has to
be well formed.  Read expressions are kept under that text.  A text that
cannot be read is not kept: it is read again, and refused again, whenever it
is asked for.

Whatever a cache holds under a text is used as it is.  So a cache stands for
any way to compile expressions, also those that are not read here.
-/

namespace Pattern

/-- The text of a source anchored at the start of what it is matched
against. -/
def anchored (source : String) : String :=
  "^(?:" ++ source ++ ")"

/-- What finds the matches of an anchored source, if this is well formed. -/
def compile? (source : String) : Option PatternProgram :=
  (ofText? (anchored source)).map toProgram

end Pattern

/-- Expressions read so far, each under its anchored text. -/
structure PatternCache where
  entries : List (String × PatternProgram)

namespace PatternCache

/-- The cache in which nothing is kept. -/
def empty : PatternCache := ⟨[]⟩

/-- The number of expressions kept. -/
def size (cache : PatternCache) : Nat :=
  cache.entries.length

/-- The expression kept under an anchored text. -/
def get? (cache : PatternCache) (text : String) : Option PatternProgram :=
  (cache.entries.find? (·.1 == text)).map (·.2)

/-- The expression of a source, from the cache or read afresh. -/
def getOrCompile (cache : PatternCache) (source : String) : Option PatternProgram × PatternCache :=
  match cache.get? (Pattern.anchored source) with
  | some program => (some program, cache)
  | none =>
    match Pattern.compile? source with
    | some program => (some program, ⟨(Pattern.anchored source, program) :: cache.entries⟩)
    | none => (none, cache)

end PatternCache
end SeedGrammar
