import SeedGrammar.Pattern.Footprint
import SeedGrammar.Pattern.Token

namespace SeedGrammar

/-!
# Reading a regular expression

The tokens are put together from left to right.  Each open group collects
the branches that a bar has ended and the operands of the current branch; a
repetition takes the last operand and puts its repetition back.  A change of
flags takes a place among the operands, because nothing may be repeated
across it.  What has been read is accepted if it is not nested too deeply and
if the automata that it stands for fit into the memory.
-/

/-- A group that is still open: its number, the completed branches and the
operands of the current one, the latest first. -/
structure PatternGroup where
  index : Option Nat
  branches : List PatternTree
  operands : List PatternTree

namespace PatternGroup

/-- A group of which nothing has been read. -/
def opened (index : Option Nat) : PatternGroup := ⟨index, [], []⟩

/-- Append an operand. -/
def push (group : PatternGroup) (operand : PatternTree) : PatternGroup :=
  { group with operands := operand :: group.operands }

/-- The current branch. -/
def branch (group : PatternGroup) : PatternTree :=
  .sequence group.operands.reverse

/-- End the current branch and start another. -/
def nextBranch (group : PatternGroup) : PatternGroup :=
  ⟨group.index, group.branch :: group.branches, []⟩

/-- What stands in the group when its end has been reached. -/
def body (group : PatternGroup) : PatternTree :=
  .choice (group.branch :: group.branches).reverse

/-- Repeat the last operand. -/
def repeatLast? (group : PatternGroup) (bounds : RepeatBounds) (greedy : Bool) :
    Option PatternGroup :=
  match group.operands with
  | [] => none
  | .flagChange :: _ => none
  | operand :: before => some { group with operands := .times bounds greedy operand :: before }

end PatternGroup

namespace PatternTree

/-- Take one token into the open groups, the innermost of which comes
first. -/
def takeToken (inner : PatternGroup) (outer : List PatternGroup) :
    PatternToken -> Option (PatternGroup × List PatternGroup)
  | .operand tree => some (inner.push tree, outer)
  | .groupStart index => some (PatternGroup.opened index, inner :: outer)
  | .groupEnd =>
    match outer with
    | [] => none
    | parent :: outer => some (parent.push (.group inner.index inner.body), outer)
  | .bar => some (inner.nextBranch, outer)
  | .times bounds greedy => (inner.repeatLast? bounds greedy).map (·, outer)
  | .flagChange => some (inner.push .flagChange, outer)

/-- The tree of a sequence of tokens. -/
def ofTokens? (inner : PatternGroup) (outer : List PatternGroup) :
    List PatternToken -> Option PatternTree
  | [] =>
    match outer with
    | [] => some inner.body
    | _ :: _ => none
  | token :: rest =>
    match takeToken inner outer token with
    | some (inner, outer) => ofTokens? inner outer rest
    | none => none

/-- The tree of an expression that a text writes. -/
def ofText? (text : String) : Option PatternTree :=
  (PatternScanner.tokens? text.toList).bind (ofTokens? (PatternGroup.opened none) [])

/-- Whether an expression is neither nested too deeply nor too large. -/
def isAdmissible (tree : PatternTree) : Bool :=
  decide (tree.nesting ≤ maxNesting) && (NormalPattern.ofTree tree).fits

end PatternTree

namespace Pattern

/-- The expression that a text writes. -/
def ofText? (text : String) : Option Pattern :=
  ((PatternTree.ofText? text).filter PatternTree.isAdmissible).map PatternTree.toPattern

end Pattern
end SeedGrammar
