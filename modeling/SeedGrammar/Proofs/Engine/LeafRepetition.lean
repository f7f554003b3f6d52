import SeedGrammar.Engine.Parse
import SeedGrammar.Proofs.Engine.Steps
import SeedGrammar.Proofs.Pattern.Iteration
import SeedGrammar.Proofs.Text.Spans

namespace SeedGrammar

/-!
# Repeated leaves whose match is kept as it is

A leaf that reads a text matches some characters of what is left of it, or fails
and leaves everything as it is.  So the engine's loop over such a leaf goes through
the text in turns, until there is no further turn or there may not be one, and the
text between the first and the last position is what is kept: `run_repeatedSlice`.

A leaf with a regular expression takes one turn, which keeps the text of its match,
`run_leafSlice`.  Whether it goes as far as the loop is a question about the
turns only.
-/

variable {types : TextTypes}

/-- What is left of a text after a turn that started with some characters left, if there
is a turn. -/
abbrev Turn := List Char -> Option (List Char)

namespace Turn

/-- A turn takes one character of a set. -/
def ofSet (set : CharSet) : Turn
  | [] => none
  | c :: rest => if set.contains c then some rest else none

/-- A turn takes the match of a program. -/
def ofProgram (program : PatternProgram) : Turn := fun rest =>
  (program.find? rest).map fun found => rest.drop found.stop

/-- A turn that leads from one rest to another. -/
def Takes (turn : Turn) (rest left : List Char) : Prop :=
  turn rest = some left

/-- Whether every turn within a text takes a character. -/
def Advances (turn : Turn) (text : List Char) : Prop :=
  forall rest left, rest <:+ text -> turn.Takes rest left -> left.length < rest.length

theorem ofSet_advances (set : CharSet) (text : List Char) : (ofSet set).Advances text := by
  intro rest left _ takes
  cases rest with
  | nil => cases takes
  | cons c rest =>
      rcases Option.ite_none_right_eq_some.mp takes with ⟨_, isRest⟩
      rw [Option.some.inj isRest]
      exact Nat.lt_succ_self _

end Turn

namespace Text

/-- The same is not left at different offsets. -/
theorem dropBytes_inj {offset other : Nat} {chars rest : List Char}
    (dropped : dropBytes offset chars = some rest) (dropped' : dropBytes other chars = some rest) :
    offset = other := by
  rcases dropBytes_eq_some.mp dropped with ⟨before, isText, rfl⟩
  rcases dropBytes_eq_some.mp dropped' with ⟨before', isText', rfl⟩
  rw [List.append_cancel_right (isText.symm.trans isText')]

theorem suffix_of_dropBytes {offset : Nat} {chars rest : List Char}
    (dropped : dropBytes offset chars = some rest) : rest <:+ chars := by
  rcases dropBytes_eq_some.mp dropped with ⟨before, isText, _⟩
  exact ⟨before, isText.symm⟩

/-- What is left behind some characters of a rest is left at an offset, too. -/
theorem dropBytes_behind {offset : Nat} (count : Nat) {chars rest : List Char}
    (dropped : dropBytes offset chars = some rest) :
    dropBytes (offset + byteLength (rest.take count)) chars = some (rest.drop count) := by
  rcases dropBytes_eq_some.mp dropped with ⟨before, rfl, rfl⟩
  rw [dropBytes_append]
  apply dropBytes_eq_some.mpr
  exact ⟨rest.take count, (List.take_append_drop count rest).symm, rfl⟩

end Text

/-- Whether a leaf takes turns and produces values of a type.  A failure leaves the
context as it is. -/
def Leaf.TakesTurns (atom : Leaf types.signature PatternProgram) (turn : Turn)
    (type : ValueType types.Kind) : Prop :=
  forall (input : String) self (context : Context types.signature) rest,
    Text.dropBytes context.position input.toList = some rest ->
    match turn rest with
    | some left => exists (content : type.Carrier types.signature) (position : Nat),
        atom.run input self context = (.ok ⟨type, content⟩, { context with position := position }) ∧
          Text.dropBytes position input.toList = some left
    | none => exists error, atom.run input self context = (.error error, context)

/-- A leaf with a set of characters takes turns of one character. -/
theorem Leaf.charset_takesTurns (set : CharSet) (label : String) :
    (charset set label Text.charAt : Leaf types.signature PatternProgram).TakesTurns
      (Turn.ofSet set) .char := by
  intro input self context rest dropped
  cases rest with
  | nil =>
      have nothing : Text.charAt input context.position = none := by rw [Text.charAt, dropped]
      simp only [Turn.ofSet, run, nothing]
      exact ⟨_, rfl⟩
  | cons c rest =>
      have isThere : Text.charAt input context.position = some (c, c.utf8Size) := by
        rw [Text.charAt, dropped]
      by_cases inSet : set.contains c = true
      · simp only [Turn.ofSet, run, isThere, if_pos inSet]
        exact ⟨c, _, rfl, Text.dropBytes_behind 1 dropped⟩
      · simp only [Turn.ofSet, run, isThere, if_neg inSet]
        exact ⟨_, rfl⟩

/-- A leaf with a regular expression takes turns that are its matches. -/
theorem Leaf.pattern_takesTurns (source : String) (program : PatternProgram) :
    (pattern source program id : Leaf types.signature PatternProgram).TakesTurns
      (Turn.ofProgram program) .captures := by
  intro input self context rest dropped
  have isRest : Text.dropBytes context.position (id input : String).toList = some rest := dropped
  cases matched : program.find? rest with
  | none =>
      simp only [Turn.ofProgram, run, isRest, matched]
      exact ⟨_, rfl⟩
  | some found =>
      simp only [Turn.ofProgram, run, isRest, matched]
      exact ⟨found.captures, _, rfl, Text.dropBytes_behind found.stop dropped⟩

/-! ## The loop -/

/-- Where a loop over turns ends: after so many of them, with so much left.  There is no
further turn, or none may be taken. -/
structure Turn.Exhausts (turn : Turn) (already : Nat) (max : Option Nat) (rest : List Char)
    (count : Nat) (left : List Char) : Prop where
  rounds : Rounds turn.Takes count rest left
  atMost : forall most, max = some most -> already + count ≤ most
  ends : max = some (already + count) ∨ turn left = none

/-- A loop that takes a turn ends where it ends after this turn. -/
theorem Turn.Exhausts.more {turn : Turn} {already count : Nat} {max : Option Nat}
    {rest middle left : List Char} (takes : turn.Takes rest middle)
    (exhausts : turn.Exhausts (already + 1) max middle count left) :
    turn.Exhausts already max rest (count + 1) left := by
  have counted : already + (count + 1) = already + 1 + count := by omega
  exact ⟨.more takes exhausts.rounds, counted ▸ exhausts.atMost, counted ▸ exhausts.ends⟩

section Loop

variable {turn : Turn} {type : ValueType types.Kind} {input : String}

/-- What the loop comes to that ends with so many values and so much left: values of the
type if there are enough of them, and a failure otherwise. -/
def LoopsTo (input : String) (type : ValueType types.Kind) (min count : Nat) (left : List Char)
    (context : Context types.signature) (reply : Reply types.signature (Values types.signature)) :
    Prop :=
  if min ≤ count then
    exists (contents : List (type.Carrier types.signature)) (position : Nat),
      reply = .finished (.ok (contents.map (Value.mk type))) { context with position := position } ∧
        Text.dropBytes position input.toList = some left
  else exists error after, reply = .finished (.error error) after

theorem loopsTo_values {min count : Nat} {left : List Char} {context : Context types.signature}
    (enough : min ≤ count) (contents : List (type.Carrier types.signature)) {position : Nat}
    (dropped : Text.dropBytes position input.toList = some left) :
    LoopsTo input type min count left context
      (.finished (.ok (contents.map (Value.mk type))) { context with position := position }) := by
  rw [LoopsTo, if_pos enough]
  exact ⟨contents, position, rfl, dropped⟩

theorem loopsTo_failure {min count : Nat} {left : List Char} {context : Context types.signature}
    (few : count < min) (error : ParseError types.signature.Payload)
    (after : Context types.signature) :
    LoopsTo input type min count left context (.finished (.error error) after) := by
  rw [LoopsTo, if_neg (Nat.not_le_of_lt few)]
  exact ⟨error, after, rfl⟩

/-- The loop over a leaf takes turns for as long as there are any and it may. -/
theorem runRepeated_turns {atom : Leaf types.signature PatternProgram}
    (takesTurns : atom.TakesTurns turn type) (advances : turn.Advances input.toList) {self : NodeId}
    {call : Caller types.signature NodeId}
    (calls : forall context, call self context =
      .finished (atom.run input self context).1 (atom.run input self context).2)
    (keepState : Bool) {min : Nat} {max : Option Nat}
    (ordered : forall most, max = some most -> min ≤ most) {rounds : Nat} {rest : List Char}
    (enough : rest.length < rounds) {contents : List (type.Carrier types.signature)}
    (atMost : forall most, max = some most -> contents.length ≤ most)
    {context : Context types.signature}
    (dropped : Text.dropBytes context.position input.toList = some rest) :
    exists count left, turn.Exhausts contents.length max rest count left ∧
      LoopsTo input type min (contents.length + count) left context
        (runRepeated call keepState self min max rounds (contents.map (Value.mk type)).reverse
          context) := by
  induction rounds generalizing rest contents context with
  | zero => exact absurd enough (Nat.not_lt_zero _)
  | succ rounds inductionHypothesis =>
      have length : (contents.map (Value.mk (L := types.signature) type)).reverse.length =
          contents.length := by rw [List.length_reverse, List.length_map]
      rw [runRepeated, length]
      by_cases full : max.any (· ≤ contents.length) = true
      · -- There are as many values as there may be.
        have isMax : max = some contents.length := by
          cases max with
          | none => cases full
          | some most =>
              exact congrArg some (Nat.le_antisymm (of_decide_eq_true full) (atMost most rfl))
        refine ⟨0, rest, ⟨.none, atMost, Or.inl isMax⟩, ?_⟩
        rw [if_pos full, List.reverse_reverse]
        exact loopsTo_values (ordered _ isMax) contents dropped
      · have further : forall most, max = some most -> contents.length + 1 ≤ most := by
          intro most isMax
          rw [isMax, Option.any_some, decide_eq_true_eq] at full
          omega
        rw [if_neg full, calls]
        have turned := takesTurns input self context rest dropped
        cases taken : turn rest with
        | none =>
            rw [taken] at turned
            rcases turned with ⟨error, isRun⟩
            refine ⟨0, rest, ⟨.none, atMost, Or.inr taken⟩, ?_⟩
            rw [isRun, Reply.andThen_finished]
            dsimp only
            by_cases few : contents.length < min
            · rw [if_pos (Or.inr few)]
              exact loopsTo_failure few error context
            · rw [if_neg (not_or.mpr ⟨not_not_intro rfl, few⟩), List.reverse_reverse, ite_self]
              exact loopsTo_values (Nat.le_of_not_lt few) contents dropped
        | some left =>
            rw [taken] at turned
            rcases turned with ⟨content, position, isRun, dropped'⟩
            have isSuffix : rest <:+ input.toList := Text.suffix_of_dropBytes dropped
            have shorter := advances rest left isSuffix taken
            have moved : position ≠ context.position := by
              intro stays
              rw [stays, dropped] at dropped'
              rw [Option.some.inj dropped'] at shorter
              exact Nat.lt_irrefl _ shorter
            have longer : (contents ++ [content]).length = contents.length + 1 :=
              List.length_append
            rcases @inductionHypothesis left (by omega) (contents ++ [content]) (longer ▸ further)
              { context with position := position } dropped' with ⟨count, left, exhausts, loops⟩
            rw [longer] at exhausts loops
            refine ⟨count + 1, left, exhausts.more taken, ?_⟩
            rw [isRun, Reply.andThen_finished]
            dsimp only
            rw [if_neg (fun stays => moved stays.1)]
            rw [List.map_append, List.reverse_append] at loops
            rw [Nat.add_assoc, Nat.add_comm 1 count] at loops
            exact loops

end Loop

/-! ## Nodes -/

/-- Whether a run keeps the text from its start to where so much is left. -/
def KeepsUpTo (input : String) (context : Context types.signature) (left : List Char)
    (reply : Reply types.signature (Outcome types.signature)) : Prop :=
  exists position : Nat, Text.dropBytes position input.toList = some left ∧
    reply = .finished (.ok ⟨.text, Text.slice input context.position position⟩)
      { context with position := position, range := (context.position, position) }

/-- Whether a run finishes with a failure. -/
def Fails (reply : Reply types.signature (Outcome types.signature)) : Prop :=
  exists error after, reply = .finished (.error error) after

theorem getAll?_contents {L : Signature} {type : ValueType L.Kind}
    (contents : List (type.Carrier L)) :
    Value.getAll? type (contents.map (Value.mk type)) = some contents := by
  induction contents with
  | nil => rfl
  | cons content contents inductionHypothesis =>
      rw [List.map_cons, Value.getAll?, Value.get?_mk, inductionHypothesis]

section Nodes

variable {machine : Machine types.signature} (unlimited : machine.maxDepth = 0)
  {type : ValueType types.Kind} {id inner : NodeId} (depth : Nat)
  {context after : Context types.signature}

include unlimited

/-- The matched input is kept where the operand matches. -/
theorem Machine.run_slice
    (isMap : machine.grammar.nodes[id]? = some (.map inner (Transform.slicing type)))
    {steps : Nat} {content : type.Carrier types.signature}
    (isRun : machine.run steps 1 inner context = .finished (.ok ⟨type, content⟩) after) :
    machine.run (steps + 1) depth id context =
      .finished (.ok ⟨.text, Text.slice machine.input context.position after.position⟩)
        { after with range := (context.position, after.position) } := by
  rw [run_clause unlimited isMap, Clause.run, isRun, Reply.andThen_finished]
  simp only [Transform.slicing, Transform.ofTyped, Value.get?_mk]
  rfl

/-- A failure of the operand is passed on. -/
theorem Machine.run_slice_fails
    (isMap : machine.grammar.nodes[id]? = some (.map inner (Transform.slicing type)))
    {steps : Nat} {error : ParseError types.Payload}
    (isRun : machine.run steps 1 inner context = .finished (.error error) after) :
    Fails (machine.run (steps + 1) depth id context) := by
  rw [run_clause unlimited isMap, Clause.run, isRun, Reply.andThen_finished]
  exact ⟨error, _, rfl⟩

variable {turn : Turn} {leaf : NodeId} {atom : Leaf types.signature PatternProgram}
  (isLeaf : machine.grammar.nodes[leaf]? = some (.leaf atom))
  (takesTurns : atom.TakesTurns turn type) {rest : List Char}
  (dropped : Text.dropBytes context.position machine.input.toList = some rest)

include isLeaf takesTurns dropped

/-- A leaf of which the matched input is kept takes one turn. -/
theorem Machine.run_leafSlice
    (isMap : machine.grammar.nodes[id]? = some (.map leaf (Transform.slicing type)))
    (steps : Nat) :
    match turn rest with
    | some left => KeepsUpTo machine.input context left (machine.run (steps + 2) depth id context)
    | none => Fails (machine.run (steps + 2) depth id context) := by
  have isRun : machine.run (steps + 1) 1 leaf context =
      .finished (atom.run machine.input leaf context).1 (atom.run machine.input leaf context).2 :=
    run_clause unlimited isLeaf steps 1 context
  have turned := takesTurns machine.input leaf context rest dropped
  cases taken : turn rest with
  | none =>
      rw [taken] at turned
      rcases turned with ⟨error, failed⟩
      rw [failed] at isRun
      exact run_slice_fails unlimited depth isMap isRun
  | some left =>
      rw [taken] at turned
      rcases turned with ⟨content, position, matched, dropped'⟩
      rw [matched] at isRun
      exact ⟨position, dropped', run_slice unlimited depth isMap isRun⟩

/-- A repeated leaf of which the matched input is kept takes turns. -/
theorem Machine.run_repeatedSlice (advances : turn.Advances machine.input.toList) {min : Nat}
    {max : Option Nat}
    (ordered : forall most, max = some most -> min ≤ most) {repeats : NodeId}
    (isRepeated : machine.grammar.nodes[repeats]? = some (.repeated leaf type min max))
    (isMap : machine.grammar.nodes[id]? = some (.map repeats (Transform.slicing (.list type))))
    {steps : Nat} (enough : rest.length + 3 ≤ steps) :
    exists count left, turn.Exhausts 0 max rest count left ∧
      if min ≤ count then KeepsUpTo machine.input context left (machine.run steps depth id context)
      else Fails (machine.run steps depth id context) := by
  rcases Nat.exists_eq_add_of_le' enough with ⟨more, rfl⟩
  have calls : forall context, machine.run (more + rest.length + 1) 1 leaf context =
      .finished (atom.run machine.input leaf context).1 (atom.run machine.input leaf context).2 :=
    fun context => run_clause unlimited isLeaf (more + rest.length) 1 context
  have noneYet : forall most, max = some most ->
      ([] : List (type.Carrier types.signature)).length ≤ most := fun _ _ => Nat.zero_le _
  rcases runRepeated_turns takesTurns advances calls (!machine.grammar.writesState leaf) ordered
      (show rest.length < more + rest.length + 1 by omega) noneYet dropped with
    ⟨count, left, exhausts, loops⟩
  have isRun := run_clause unlimited isRepeated (more + rest.length + 1) 1 context
  rw [List.length_nil, Nat.zero_add, List.map_nil, List.reverse_nil] at loops
  refine ⟨count, left, exhausts, ?_⟩
  rw [LoopsTo] at loops
  rw [Clause.run] at isRun
  by_cases reached : min ≤ count
  · rw [if_pos reached] at loops ⊢
    rcases loops with ⟨contents, position, isLoop, dropped'⟩
    rw [isLoop, Reply.andThen_finished, finishGathered, Gather.collect, getAll?_contents] at isRun
    exact ⟨position, dropped', run_slice unlimited depth isMap isRun⟩
  · rw [if_neg reached] at loops ⊢
    rcases loops with ⟨error, after, isLoop⟩
    rw [isLoop] at isRun
    exact run_slice_fails unlimited depth isMap isRun

end Nodes

end SeedGrammar
