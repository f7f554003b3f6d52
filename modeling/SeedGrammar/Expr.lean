import SeedGrammar.Clause

namespace SeedGrammar

/-!
# Expressions

A grammar is written as expressions, one for each rule.  An expression is a
clause whose operands are expressions, and it has a key: two occurrences
with one key are one expression that is used twice, while equal clauses
under different keys are two expressions.  The key is what sharing means
here, since a value has no address.

Recursion goes through references by name, so expressions are finite trees.
The typing relation says which type of values an expression produces; a
reference produces what it expects of its rule.
-/

/-- An expression: a key, and a clause over expressions. -/
inductive Expr (L : Signature) where
  | node (key : Nat) (clause : Clause L Unit (Expr L))

namespace Expr

variable {L : Signature}

/-- The key of an expression. -/
def key : Expr L -> Nat
  | node key _ => key

/-- The outermost clause of an expression. -/
def clause : Expr L -> Clause L Unit (Expr L)
  | node _ clause => clause

end Expr

section Typing

variable {L : Signature}

/-- Whether an outcome, if it is a value, is one of the given type. -/
def Outcome.Fits (outcome : Outcome L) (type : ValueType L.Kind) : Prop :=
  forall value, outcome = .ok value -> value.type = type

/-- Whether a transform takes outcomes of one type to outcomes of another
and never finds a value to be of the wrong type. -/
def Transform.Takes (transform : Transform L) (source target : ValueType L.Kind) : Prop :=
  forall outcome token, Outcome.Fits outcome source ->
    exists result, transform outcome token = .ok result ∧ Outcome.Fits result target

/-- Whether the values of a leaf of the author's own have a type. -/
def Action.Yields (act : Action L) (type : ValueType L.Kind) : Prop :=
  forall input position state value count,
    act input position state = .ok (value, count) -> value.type = type

/-- Whether the values of items with the given types, so many of them, are
gathered into one of some type. -/
def Gather.Takes : Gather L.Kind -> (Nat -> ValueType L.Kind) -> Nat -> ValueType L.Kind -> Prop
  | pick index, types, count, type => index < count ∧ types index = type
  | pair first second, types, count, type =>
    2 ≤ count ∧ types 0 = first ∧ types 1 = second ∧ type = .pair first second
  | list element, types, count, type =>
    (forall index, index < count -> types index = element) ∧ type = .list element

/-- Whether a leaf produces values of a type. -/
inductive Leaf.HasType : Leaf L Unit -> ValueType L.Kind -> Prop where
  | exact {literal} : HasType (.exact literal) .text
  | charset {set label read} : HasType (.charset set label read) .char
  | pattern {source text} : HasType (.pattern source () text) .captures
  | empty : HasType .empty .unit
  | eof : HasType .eof .unit
  | fail {message payload type} : HasType (.fail message payload) type
  | custom {name act type} : Action.Yields act type -> HasType (.custom name act) type

/-- Whether an expression produces values of a type. -/
inductive Expr.HasType : Expr L -> ValueType L.Kind -> Prop where
  | leaf {key atom type} : atom.HasType type -> HasType (.node key (.leaf atom)) type
  | map {key inner transform source target} : HasType inner source ->
      transform.Takes source target -> HasType (.node key (.map inner transform)) target
  | update {key inner next type} : HasType inner type ->
      HasType (.node key (.update inner next)) type
  | sequence {key items gather type} (types : Nat -> ValueType L.Kind) :
      (forall index item, items[index]? = some item -> HasType item (types index)) ->
      gather.Takes types items.length type -> HasType (.node key (.sequence items gather)) type
  | choice {key alts type} : (forall alt, alt ∈ alts -> HasType alt type) ->
      HasType (.node key (.choice alts)) type
  | optional {key inner element} : HasType inner element ->
      HasType (.node key (.optional inner element)) (.option element)
  | attempt {key inner type} : HasType inner type -> HasType (.node key (.attempt inner)) type
  | lookahead {key inner look negative type seen} : HasType inner type -> HasType look seen ->
      HasType (.node key (.lookahead inner look negative)) type
  | repeated {key inner element min max} : HasType inner element ->
      HasType (.node key (.repeated inner element min max)) (.list element)
  | reference {key name type} : HasType (.node key (.reference name type none)) type
  | leftRecursion {key inner type} : HasType inner type ->
      HasType (.node key (.leftRecursion inner)) type

end Typing
end SeedGrammar
