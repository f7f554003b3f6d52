import SeedGrammar.CharSet.ClassText
import SeedGrammar.Expr

namespace SeedGrammar

/-!
# Combinators

A parser is an expression that is known to produce values of a type.  The
combinators make a new expression, with a key that no other has, from the
expressions of their operands; using a parser twice uses one expression
twice.  Keys are handed out in the order of construction.

Three combinators look at the outermost clause of an operand.  A function
on a parser that already is a function of another is composed with it, so a
chain of functions is one node.  An alternative added to alternatives joins
them.  A repetition of which only the matched input is kept becomes a
regular expression if the operand is a set of characters or a regular
expression itself.
-/

/-- An expression that produces values of a type. -/
structure Parser (L : Signature) (type : ValueType L.Kind) where
  expr : Expr L
  typed : expr.HasType type

/-- Construction of expressions: the state is the next key. -/
abbrev Construction := StateM Nat

namespace Transform

variable {L : Signature}

/-- A function on typed outcomes as one on outcomes of any type. -/
def ofTyped (source target : ValueType L.Kind)
    (f : Except (ParseError L.Payload) (source.Carrier L) -> Token L ->
      Except (ParseError L.Payload) (target.Carrier L)) : Transform L :=
  fun outcome token =>
    match outcome with
    | .error error => .ok ((f (.error error) token).map (Value.mk target))
    | .ok value =>
      match value.get? source with
      | some content => .ok ((f (.ok content) token).map (Value.mk target))
      | none => .error (.wrongType token.node)

/-- One transform after another. -/
def andThen (first second : Transform L) : Transform L := fun outcome token =>
  match first outcome token with
  | .ok outcome => second outcome token
  | .error fault => .error fault

private theorem map_mk_fits {target : ValueType L.Kind}
    (result : Except (ParseError L.Payload) (target.Carrier L)) :
    Outcome.Fits (result.map (Value.mk target)) target := by
  intro value isValue
  cases result with
  | error error => cases isValue
  | ok content =>
    cases isValue
    rfl

theorem ofTyped_takes (source target : ValueType L.Kind)
    (f : Except (ParseError L.Payload) (source.Carrier L) -> Token L ->
      Except (ParseError L.Payload) (target.Carrier L)) :
    (ofTyped source target f).Takes source target := by
  intro outcome token fits
  cases outcome with
  | error error => exact ⟨_, rfl, map_mk_fits _⟩
  | ok value =>
    rcases value with ⟨type, content⟩
    have sameType : type = source := fits _ rfl
    subst sameType
    exact ⟨(f (.ok content) token).map (Value.mk target),
      by simp only [ofTyped, Value.get?_mk], map_mk_fits _⟩

theorem andThen_takes {first second : Transform L} {source middle target : ValueType L.Kind}
    (firstTakes : first.Takes source middle) (secondTakes : second.Takes middle target) :
    (first.andThen second).Takes source target := by
  intro outcome token fits
  rcases firstTakes outcome token fits with ⟨result, isResult, resultFits⟩
  rcases secondTakes result token resultFits with ⟨last, isLast, lastFits⟩
  exact ⟨last, by simp only [andThen, isResult, isLast], lastFits⟩

end Transform

namespace Expr

variable {L : Signature}

/-- A transform of an expression.  Two in a row are composed. -/
def transformed (expr : Expr L) (transform : Transform L) : Clause L Unit (Expr L) :=
  match expr with
  | .node _ (.map inner earlier) => .map inner (earlier.andThen transform)
  | expr => .map expr transform

/-- The alternatives of an expression: its own if it is a choice. -/
def alternatives : Expr L -> List (Expr L)
  | .node _ (.choice alts) => alts
  | expr => [expr]

/-- The source of the regular expression that matches what an expression
does, if that is a set of characters or a regular expression itself. -/
def source? : Expr L -> Option String
  | .node _ (.leaf (.charset set _ _)) => some set.classText
  | .node _ (.leaf (.pattern source _ _)) => some source
  | _ => none

theorem transformed_hasType {expr : Expr L} {transform : Transform L}
    {source target : ValueType L.Kind} (typed : expr.HasType source)
    (takes : transform.Takes source target) (key : Nat) :
    (Expr.node key (expr.transformed transform)).HasType target := by
  unfold transformed
  split
  · rename_i inner earlier
    cases typed with
    | map innerTyped earlierTakes =>
      exact .map innerTyped (Transform.andThen_takes earlierTakes takes)
  · exact .map typed takes

theorem alternatives_hasType {expr : Expr L} {type : ValueType L.Kind}
    (typed : expr.HasType type) {alt : Expr L} (member : alt ∈ expr.alternatives) :
    alt.HasType type := by
  unfold alternatives at member
  split at member
  · cases typed with
    | choice altsTyped => exact altsTyped alt member
  · rcases List.mem_singleton.mp member with rfl
    exact typed

end Expr

namespace Parser

variable {L : Signature} {type source target : ValueType L.Kind}

/-- Give a clause a key of its own. -/
def make (clause : Clause L Unit (Expr L))
    (typed : forall key, (Expr.node key clause).HasType type) :
    Construction (Parser L type) := fun next =>
  (⟨.node next clause, typed next⟩, next + 1)

/-- A leaf. -/
def leaf (atom : Leaf L Unit) (typed : atom.HasType type) : Construction (Parser L type) :=
  make (.leaf atom) fun _ => .leaf typed

/-- A literal. -/
def exact (literal : L.Input) : Construction (Parser L .text) :=
  leaf (.exact literal) .exact

/-- One character of a set, described by a label. -/
def labelled [CharStream L.Input] (set : CharSet) (label : String) :
    Construction (Parser L .char) :=
  leaf (.charset set label CharStream.charAt) .charset

/-- One character of a set. -/
def charset [CharStream L.Input] (set : CharSet) : Construction (Parser L .char) :=
  labelled set ("Charset(" ++ set.classText ++ ")")

/-- One of the given characters. -/
def oneOf [CharStream L.Input] (chars : String) : Construction (Parser L .char) :=
  labelled (CharSet.ofChars chars.toList) ("OneOf(" ++ Text.quoted chars ++ ")")

/-- One character other than the given ones. -/
def noneOf [CharStream L.Input] (chars : String) : Construction (Parser L .char) :=
  labelled (CharSet.ofChars chars.toList).complement ("NoneOf(" ++ Text.quoted chars ++ ")")

/-- A regular expression at the current position. -/
def regex [CharStream L.Input] (source : String) : Construction (Parser L .captures) :=
  leaf (.pattern source () CharStream.text) .pattern

/-- Success without consuming. -/
def empty : Construction (Parser L .unit) :=
  leaf .empty .empty

/-- The end of the input. -/
def eof : Construction (Parser L .unit) :=
  leaf .eof .eof

/-- Failure with a message, and perhaps a payload. -/
def fail (message : String) (payload : Option L.Payload) : Construction (Parser L type) :=
  leaf (.fail message payload) .fail

/-- A leaf of the author's own. -/
def custom (name : String)
    (act : L.Input -> Nat -> L.State ->
      Except (Rejection L.Payload) (type.Carrier L × Nat)) :
    Construction (Parser L type) :=
  leaf
    (.custom name fun input position state =>
      (act input position state).map fun result => (⟨type, result.1⟩, result.2))
    (.custom fun input position state value count isValue => by
      cases isResult : act input position state with
      | error rejection =>
        rw [isResult] at isValue
        cases isValue
      | ok result =>
        rw [isResult] at isValue
        cases isValue
        rfl)

/-- The rule of a name, which is looked up when the grammar is built. -/
def reference (name : String) (type : ValueType L.Kind) : Construction (Parser L type) :=
  make (.reference name type none) fun _ => .reference

/-- Apply a function to the outcome, success or failure. -/
def mapOutcome (parser : Parser L source)
    (f : Except (ParseError L.Payload) (source.Carrier L) -> Token L ->
      Except (ParseError L.Payload) (target.Carrier L)) :
    Construction (Parser L target) :=
  make (parser.expr.transformed (Transform.ofTyped source target f))
    (Expr.transformed_hasType parser.typed (Transform.ofTyped_takes source target f))

/-- Apply a function to a value. -/
def map (parser : Parser L source) (f : source.Carrier L -> Token L -> target.Carrier L) :
    Construction (Parser L target) :=
  parser.mapOutcome fun result token => result.map (f · token)

/-- Apply a function to a value that may reject it.  A rejected match fails
where it started, at this node, with the payload of the rejection. -/
def mapChecked (parser : Parser L source)
    (f : source.Carrier L -> Token L -> Except L.Payload (target.Carrier L)) :
    Construction (Parser L target) :=
  parser.mapOutcome fun result token =>
    match result with
    | .error error => .error error
    | .ok content =>
      match f content token with
      | .ok content => .ok content
      | .error payload =>
        .error (((ParseError.bare token.start).withNode token.node).withPayload payload)

/-- Apply a function to the payload of a failure. -/
def mapPayload (parser : Parser L type) (f : L.Payload -> L.Payload) :
    Construction (Parser L type) :=
  parser.mapOutcome fun result _ => result.mapError (·.mapPayload f)

/-- Replace the state after a match. -/
def updateState (parser : Parser L type) (next : L.State -> Token L -> L.State) :
    Construction (Parser L type) :=
  make (.update parser.expr next) fun _ => .update parser.typed

/-- Keep the matched input instead of the value. -/
def slice (parser : Parser L type) : Construction (Parser L .text) :=
  parser.map fun _ token => token.span

/-- Succeed without a value where the parser fails without consuming. -/
def optional (parser : Parser L type) : Construction (Parser L (.option type)) :=
  make (.optional parser.expr type) fun _ => .optional parser.typed

/-- Undo everything where the parser fails. -/
def attempt (parser : Parser L type) : Construction (Parser L type) :=
  make (.attempt parser.expr) fun _ => .attempt parser.typed

/-- Require another parser to match afterwards, without consuming. -/
def followedBy (parser : Parser L type) (look : Parser L source) :
    Construction (Parser L type) :=
  make (.lookahead parser.expr look.expr false) fun _ => .lookahead parser.typed look.typed

/-- Require another parser not to match afterwards. -/
def notFollowedBy (parser : Parser L type) (look : Parser L source) :
    Construction (Parser L type) :=
  make (.lookahead parser.expr look.expr true) fun _ => .lookahead parser.typed look.typed

private theorem pair_typed (left : Parser L source) (right : Parser L target)
    (index : Nat) (item : Expr L) (isItem : [left.expr, right.expr][index]? = some item) :
    item.HasType (if index = 0 then source else target) := by
  match index with
  | 0 =>
    cases isItem
    exact left.typed
  | 1 =>
    cases isItem
    exact right.typed
  | _ + 2 => cases isItem

/-- Two parsers in order, of which the second gives the value. -/
def thenRight (left : Parser L source) (right : Parser L target) :
    Construction (Parser L target) :=
  make (.sequence [left.expr, right.expr] (.pick 1)) fun _ =>
    .sequence _ (pair_typed left right) ⟨by simp, rfl⟩

/-- Two parsers in order, of which the first gives the value. -/
def thenLeft (left : Parser L source) (right : Parser L target) :
    Construction (Parser L source) :=
  make (.sequence [left.expr, right.expr] (.pick 0)) fun _ =>
    .sequence _ (pair_typed left right) ⟨by simp, rfl⟩

/-- Two parsers in order, with the pair of their values. -/
def both (left : Parser L source) (right : Parser L target) :
    Construction (Parser L (.pair source target)) :=
  make (.sequence [left.expr, right.expr] (.pair source target)) fun _ =>
    .sequence _ (pair_typed left right) ⟨by simp, rfl, rfl, rfl⟩

/-- A parser between two others, of which it gives the value. -/
def between (parser : Parser L type) (left : Parser L source) (right : Parser L target) :
    Construction (Parser L type) :=
  make (.sequence [left.expr, parser.expr, right.expr] (.pick 1)) fun _ =>
    .sequence (fun index => if index = 0 then source else if index = 1 then type else target)
      (fun index item isItem => by
        match index with
        | 0 =>
          cases isItem
          exact left.typed
        | 1 =>
          cases isItem
          exact parser.typed
        | 2 =>
          cases isItem
          exact right.typed
        | _ + 3 => cases isItem)
      ⟨by simp, rfl⟩

/-- A parser between two literals. -/
def betweenLiterals (parser : Parser L type) (left right : L.Input) :
    Construction (Parser L type) := do
  let left ← exact left
  let right ← exact right
  parser.between left right

/-- All parsers in order, with the list of their values. -/
def sequence (parsers : List (Parser L type)) : Construction (Parser L (.list type)) :=
  make (.sequence (parsers.map (·.expr)) (.list type)) fun _ =>
    .sequence (fun _ => type)
      (fun index item isItem => by
        rw [List.getElem?_map] at isItem
        rcases Option.map_eq_some_iff.mp isItem with ⟨parser, _, rfl⟩
        exact parser.typed)
      ⟨fun _ _ => rfl, rfl⟩

/-- The first of several parsers that does not fail without consuming. -/
def choice (parsers : List (Parser L type)) : Construction (Parser L type) :=
  make (.choice (parsers.map (·.expr))) fun _ =>
    .choice fun alt member => by
      rcases List.mem_map.mp member with ⟨parser, _, rfl⟩
      exact parser.typed

/-- Another parser where this one fails without consuming. -/
def orElse (parser other : Parser L type) : Construction (Parser L type) :=
  make (.choice (parser.expr.alternatives ++ [other.expr])) fun _ =>
    .choice fun alt member => by
      rcases List.mem_append.mp member with own | last
      · exact Expr.alternatives_hasType parser.typed own
      · rcases List.mem_singleton.mp last with rfl
        exact other.typed

/-- Between a least and a greatest number of matches. -/
def repeated (parser : Parser L type) (min : Nat) (max : Option Nat) :
    Construction (Parser L (.list type)) :=
  make (.repeated parser.expr type min max) fun _ => .repeated parser.typed

/-- Exactly a number of matches. -/
def times (parser : Parser L type) (count : Nat) : Construction (Parser L (.list type)) :=
  parser.repeated count (some count)

/-- Any number of matches. -/
def many (parser : Parser L type) : Construction (Parser L (.list type)) :=
  parser.repeated 0 none

/-- At least one match. -/
def atLeastOne (parser : Parser L type) : Construction (Parser L (.list type)) :=
  parser.repeated 1 none

/-- Allow the parser to start with itself. -/
def leftRecursive (parser : Parser L type) : Construction (Parser L type) :=
  make (.leftRecursion parser.expr) fun _ => .leftRecursion parser.typed

/-- The source of a counted repetition of a regular expression. -/
def repeatedSource (source : String) (min : Nat) (max : Option Nat) : String :=
  "(?:" ++ source ++ ")\x7b" ++ Text.decimal min ++ ","
    ++ (match max with
      | some max => Text.decimal max
      | none => "") ++ "\x7d"

/-- The input matched between a least and a greatest number of times.  For a
set of characters or a regular expression one regular expression does it,
unless the bounds are the wrong way round. -/
def repeatedText [CharStream L.Input] (parser : Parser L type) (min : Nat) (max : Option Nat) :
    Construction (Parser L .text) :=
  match parser.expr.source? with
  | some source =>
    if max.all (min ≤ ·) then do
      let fused ← regex (repeatedSource source min max)
      fused.slice
    else do
      let general ← parser.repeated min max
      general.slice
  | none => do
    let general ← parser.repeated min max
    general.slice

/-- The input matched exactly a number of times. -/
def timesText [CharStream L.Input] (parser : Parser L type) (count : Nat) :
    Construction (Parser L .text) :=
  parser.repeatedText count (some count)

end Parser
end SeedGrammar
