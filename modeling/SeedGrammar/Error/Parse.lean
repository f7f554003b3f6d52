import SeedGrammar.Text.SourcePosition

namespace SeedGrammar

/-!
# Failed matches

A failed match is ordinary data.  It says where the failing node started to
match, and may say which node that was, carry a fixed message of that node,
and carry a payload of the grammar's author.  The parts are independent:
attributing a failure or attaching a message keeps the rest.
-/

/-- The number of machine words.  Positions and counts are words of
sixty-four bits. -/
def wordCount : Nat := 0x10000000000000000

/-- The number of a node of a resolved grammar. -/
abbrev NodeId := Nat

namespace NodeId

/-- How a node is named in messages. -/
def display (id : NodeId) : String :=
  "#" ++ Text.decimal id

end NodeId

/-- A failed match with a payload of some type. -/
structure ParseError (ε : Type) where
  position : Nat
  node : Option NodeId
  message : Option String
  payload : Option ε
deriving DecidableEq, Repr

namespace ParseError

variable {ε δ : Type}

/-- A failure that only has a position. -/
def bare (position : Nat) : ParseError ε :=
  ⟨position, none, none, none⟩

/-- Attribute a failure to a node. -/
def withNode (error : ParseError ε) (id : NodeId) : ParseError ε :=
  { error with node := some id }

/-- Attach a message. -/
def withMessage (error : ParseError ε) (message : String) : ParseError ε :=
  { error with message := some message }

/-- Attach a payload. -/
def withPayload (error : ParseError ε) (payload : ε) : ParseError ε :=
  { error with payload := some payload }

/-- Change the payload and keep position, attribution and message. -/
def mapPayload (f : ε -> δ) (error : ParseError ε) : ParseError δ :=
  ⟨error.position, error.node, error.message, error.payload.map f⟩

/-- Line and column of a failure in a text input. -/
def sourcePosition (error : ParseError ε) (text : String) : SourcePosition :=
  SourcePosition.ofOffset text error.position

/-- How a failure is shown, given how its payload is. -/
def display (showPayload : ε -> String) (error : ParseError ε) : String :=
  "Parse failed at position " ++ Text.decimal error.position
    ++ (match error.message with
      | some message => ": " ++ message
      | none => "")
    ++ (match error.node with
      | some id => " (parser " ++ id.display ++ ")"
      | none => "")
    ++ (match error.payload with
      | some payload => " [" ++ showPayload payload ++ "]"
      | none => "")

end ParseError
end SeedGrammar
