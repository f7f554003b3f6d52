import SeedGrammar.Pattern.Matching
import SeedGrammar.Stream

namespace SeedGrammar

/-!
# Types of values

Parsers of one grammar agree on the type of their input, of the state that
is threaded through a parse, and of the payload of a failure.  They differ
in the type of their values, so those types are given by codes: a few are
built in, a signature adds its own, and pairs, lists and options are formed
from them.  A value carries its code, hence a value of unknown type can be
asked for its content at a given one, and answers only at its own.
-/

/-- What the parsers of a grammar have in common: the types of input, state
and payload, and the signature's own types of values with their names. -/
structure Signature where
  Input : Type
  State : Type
  Payload : Type
  Kind : Type
  Carrier : Kind -> Type
  kindName : Kind -> String
  stream : Stream Input
  kindEquality : DecidableEq Kind

attribute [instance] Signature.stream Signature.kindEquality

/-- The code of a type of values.  `text` is the type of the input. -/
inductive ValueType (κ : Type) where
  | unit
  | char
  | text
  | captures
  | own (kind : κ)
  | pair (first second : ValueType κ)
  | list (element : ValueType κ)
  | option (element : ValueType κ)
deriving DecidableEq, Repr

namespace ValueType

/-- The name of a type in messages. -/
def name {κ : Type} (kindName : κ -> String) : ValueType κ -> String
  | unit => "unit"
  | char => "char"
  | text => "str"
  | captures => "caps"
  | own kind => kindName kind
  | pair first second => "(" ++ first.name kindName ++ ", " ++ second.name kindName ++ ")"
  | list element => "list<" ++ element.name kindName ++ ">"
  | option element => "opt<" ++ element.name kindName ++ ">"

/-- The type that a code stands for. -/
def Carrier (L : Signature) : ValueType L.Kind -> Type
  | unit => Unit
  | char => Char
  | text => L.Input
  | captures => Captures
  | own kind => L.Carrier kind
  | pair first second => first.Carrier L × second.Carrier L
  | list element => List (element.Carrier L)
  | option element => Option (element.Carrier L)

end ValueType

/-- A value together with the code of its type. -/
structure Value (L : Signature) where
  type : ValueType L.Kind
  content : type.Carrier L

namespace Value

variable {L : Signature}

/-- The content of a value at a type: none unless that is the value's own. -/
def get? (type : ValueType L.Kind) (value : Value L) : Option (type.Carrier L) :=
  if same : value.type = type then some (same ▸ value.content) else none

@[simp] theorem get?_mk (type : ValueType L.Kind) (content : type.Carrier L) :
    get? type ⟨type, content⟩ = some content := by
  simp [get?]

/-- The contents of several values at one type. -/
def getAll? (type : ValueType L.Kind) : List (Value L) -> Option (List (type.Carrier L))
  | [] => some []
  | value :: rest =>
    match value.get? type, getAll? type rest with
    | some content, some contents => some (content :: contents)
    | _, _ => none

end Value

/-- How the value of a sequence is made from the values of its items: one of
them, a pair of two, or the list of all. -/
inductive Gather (κ : Type) where
  | pick (index : Nat)
  | pair (first second : ValueType κ)
  | list (element : ValueType κ)
deriving DecidableEq, Repr

namespace Gather

variable {L : Signature}

/-- The value made from the values of the items, if they have the types that
are expected of them. -/
def collect : Gather L.Kind -> List (Value L) -> Option (Value L)
  | pick index, values => values[index]?
  | pair first second, values =>
    match values with
    | left :: right :: _ =>
      match left.get? first, right.get? second with
      | some left, some right => some ⟨.pair first second, (left, right)⟩
      | _, _ => none
    | _ => none
  | list element, values => (Value.getAll? element values).map fun contents =>
    ⟨.list element, contents⟩

end Gather
end SeedGrammar
