import SeedGrammar.Grammar.Basic

namespace SeedGrammar

/-!
# Grammars of text

A grammar of texts may have any state, payloads and types of values.  What
makes it one is that its inputs are texts, and that its leaves read them as
such: characters are those of the text, and regular expressions see the text
itself.

The smallest signature of that kind has no state, no failure has a payload,
and all values are of the built-in types.  Results about grammars of any
signature are tried out on it, or on the same signature with a counter as
state.
-/

/-- What a signature of texts has besides its inputs. -/
structure TextTypes where
  State : Type
  Payload : Type
  Kind : Type
  Carrier : Kind -> Type
  kindName : Kind -> String
  kindEquality : DecidableEq Kind

/-- The signature of texts with given types. -/
@[reducible] def TextTypes.signature (types : TextTypes) : Signature where
  Input := String
  State := types.State
  Payload := types.Payload
  Kind := types.Kind
  Carrier := types.Carrier
  kindName := types.kindName
  stream := inferInstance
  kindEquality := types.kindEquality

section Texts

variable {types : TextTypes} {ρ : Type}

/-- Whether a leaf reads its input as a text.  Leaves of the author's own may do
whatever they want with it. -/
def Leaf.ReadsText : Leaf types.signature ρ -> Prop
  | .charset _ _ read => read = Text.charAt
  | .pattern _ _ text => text = id
  | .custom _ _ => False
  | _ => True

/-- Whether all leaves of a grammar read texts as such. -/
def Grammar.ReadsText (grammar : Grammar types.signature) : Prop :=
  forall (id : NodeId) atom, grammar.nodes[id]? = some (.leaf atom) -> atom.ReadsText

end Texts

/-- Text, without state, payloads and types of values of its own. -/
def plainText : Signature where
  Input := String
  State := Unit
  Payload := Empty
  Kind := Empty
  Carrier := Empty.elim
  kindName := Empty.elim
  stream := inferInstance
  kindEquality := inferInstance

instance : CharStream plainText.Input :=
  inferInstanceAs (CharStream String)

/-- Text with a counter. -/
def countedText : Signature := { plainText with State := Nat }

end SeedGrammar
