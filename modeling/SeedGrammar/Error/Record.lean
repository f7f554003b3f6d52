import SeedGrammar.Error.Parse
import SeedGrammar.Json.Reader

namespace SeedGrammar
namespace ParseError

/-!
# Failures as JSON records

A failure is written as an object with its four parts in a fixed order,
absent parts as null.  Reading is more liberal: the parts may come in any
order, parts that may be absent may be missing, and parts with other names
are passed over once they are well formed.  A list of exactly the four parts
in order is read as well.  A position is a machine word, so it is accepted
only as the plain digits of a number below two to the sixty-fourth.
-/

variable {ε : Type}

/-- A failure as a JSON record, given how its payload is written. -/
def toJson (writePayload : ε -> String) (error : ParseError ε) : String :=
  "\x7b\"position\":" ++ Text.decimal error.position
    ++ ",\"parser\":" ++ Json.optionText Text.decimal error.node
    ++ ",\"message\":" ++ Json.optionText Json.stringText error.message
    ++ ",\"user_error\":" ++ Json.optionText writePayload error.payload ++ "\x7d"

/-- The number of a JSON value that is a machine word. -/
def word? : Json -> Option Nat
  | .number digits =>
    match Text.ofDecimal? digits with
    | some value => if value < wordCount then some value else none
    | none => none
  | _ => none

/-- The text of a JSON string. -/
def string? : Json -> Option String
  | .string units => Json.text? units
  | _ => none

/-- A part that may be null. -/
def nullable? {α : Type} (read : Json -> Option α) : Json -> Option (Option α)
  | .null => some none
  | value => (read value).map some

/-- The failure whose four parts are given. -/
def ofParts? (position node message payload : Json) : Option (ParseError String) := do
  let position ← word? position
  let node ← nullable? word? node
  let message ← nullable? string? message
  let payload ← nullable? string? payload
  return ⟨position, node, message, payload⟩

/-- The members of an object with their keys as texts. -/
def keyedMembers? : List (List JsonUnit × Json) -> Option (List (String × Json))
  | [] => some []
  | (key, value) :: rest =>
    match Json.text? key, keyedMembers? rest with
    | some key, some rest => some ((key, value) :: rest)
    | _, _ => none

/-- The only value under a key, or the given one if there is none.  A key
that is there twice has no value. -/
def part? (members : List (String × Json)) (key : String) (absent : Option Json) : Option Json :=
  match members.filter (·.1 == key) with
  | [] => absent
  | [(_, value)] => some value
  | _ => none

/-- The failure that a JSON value records. -/
def ofRecord? : Json -> Option (ParseError String)
  | .array [position, node, message, payload] => ofParts? position node message payload
  | .object members => do
    let members ← keyedMembers? members
    let position ← part? members "position" none
    let node ← part? members "parser" (some .null)
    let message ← part? members "message" (some .null)
    let payload ← part? members "user_error" (some .null)
    ofParts? position node message payload
  | _ => none

/-- The failure that a JSON text records. -/
def ofJson? (text : String) : Option (ParseError String) :=
  (Json.ofText? text).bind ofRecord?

end ParseError
end SeedGrammar
