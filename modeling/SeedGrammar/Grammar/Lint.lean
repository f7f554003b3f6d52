import SeedGrammar.Grammar.Description
import SeedGrammar.Grammar.LeftEdge
import SeedGrammar.Grammar.Reach
import SeedGrammar.Grammar.Warning

namespace SeedGrammar
namespace Grammar

/-!
# Lints

Three checks look at a grammar from one of its nodes.  Rules that come back
to themselves along left edges are reported once for each root, under its
first name.  In a choice, an alternative is dead after one that always
succeeds, or if it repeats a literal.  Rules that the node does not lead to
are unused.
-/

variable {L : Signature}

/-- The rules to be checked for left recursion: the first of each root that
can be reached. -/
def reachedRules (reached : List NodeId) : List NodeId -> List (Rule L) -> List (Rule L)
  | _, [] => []
  | seen, rule :: rest =>
    if rule.root ∈ reached ∧ rule.root ∉ seen then
      rule :: reachedRules reached (rule.root :: seen) rest
    else reachedRules reached seen rest

/-- Report the rules that reach themselves along left edges. -/
def leftRecursionWarnings (grammar : Grammar L) :
    List (Rule L) -> Nullability -> List GrammarWarning × Nullability
  | [], known => ([], known)
  | rule :: rest, known =>
    match grammar.leftCycle rule.root known with
    | (none, known) => grammar.leftRecursionWarnings rest known
    | (some path, known) =>
      let warning := GrammarWarning.about .unguardedLeftRecursion rule.root
        ("Rule " ++ rule.name ++ " refers to itself in leftmost position without left_recur")
      let (warnings, known) := grammar.leftRecursionWarnings rest known
      (warning.withRelated path :: warnings, known)

/-- What the alternatives before one have shown: whether one of them always
succeeds, and the literals among them. -/
structure Earlier (L : Signature) where
  succeeds : Bool
  literals : List L.Input

/-- Why an alternative is dead, if it is. -/
def deadReason? (grammar : Grammar L) (earlier : Earlier L) (index : Nat) (alt : NodeId) :
    Option String :=
  if earlier.succeeds then
    some ("Alternative " ++ Text.decimal index ++ " follows an alternative that always succeeds")
  else
    match grammar.nodes[alt]? with
    | some (.leaf (.exact literal)) =>
      if literal ∈ earlier.literals then
        some ("Alternative " ++ Text.decimal index ++ " repeats an earlier literal "
          ++ grammar.describe alt)
      else none
    | _ => none

/-- What is shown once an alternative is among the earlier ones. -/
def Earlier.add (grammar : Grammar L) (earlier : Earlier L) (alt : NodeId) : Earlier L :=
  match grammar.nodes[alt]? with
  | some (.leaf .empty) => { earlier with succeeds := true }
  | some (.leaf (.exact literal)) => { earlier with literals := literal :: earlier.literals }
  | _ => earlier

/-- Report the dead alternatives of a choice. -/
def deadAlternatives (grammar : Grammar L) (choice : NodeId) :
    Earlier L -> Nat -> List NodeId -> List GrammarWarning
  | _, _, [] => []
  | earlier, index, alt :: rest =>
    let later := grammar.deadAlternatives choice (earlier.add grammar alt) (index + 1) rest
    match grammar.deadReason? earlier index alt with
    | some message =>
      (GrammarWarning.about .unreachableAlternative alt message).withRelated [choice] :: later
    | none => later

/-- Report the dead alternatives of all choices that can be reached. -/
def deadAlternativeWarnings (grammar : Grammar L) (reached : List NodeId) :
    List GrammarWarning :=
  (List.range grammar.nodeCount).flatMap fun id =>
    if id ∈ reached then
      match grammar.nodes[id]? with
      | some (.choice alts) => grammar.deadAlternatives id ⟨false, []⟩ 0 alts
      | _ => []
    else []

/-- Report the rules that cannot be reached. -/
def unusedRuleWarnings (grammar : Grammar L) (reached : List NodeId) : List GrammarWarning :=
  (grammar.rules.filter (·.root ∉ reached)).map fun rule =>
    GrammarWarning.about .unusedRule rule.root
      ("Rule " ++ rule.name ++ " is never reachable from the root rule")

/-- All warnings about a grammar as seen from a node. -/
def analyze (grammar : Grammar L) (root : NodeId) (known : Nullability) :
    List GrammarWarning × Nullability :=
  let reached := grammar.reachable root
  let (recursive, known) :=
    grammar.leftRecursionWarnings (reachedRules reached [] grammar.rules) known
  (recursive ++ grammar.deadAlternativeWarnings reached ++ grammar.unusedRuleWarnings reached,
    known)

/-- All warnings about a grammar as seen from a rule. -/
def warnings (grammar : Grammar L) (root : String) (known : Nullability) :
    Except GrammarError (List GrammarWarning × Nullability) :=
  match grammar.ruleId? root with
  | some id => .ok (grammar.analyze id known)
  | none => .error (.unknownRule root)

end Grammar
end SeedGrammar
