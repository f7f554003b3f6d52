import SeedGrammar.Parser
import SeedGrammar.Proofs.Engine.Places
import SeedGrammar.Proofs.Grammar.WellFormed
import SeedGrammar.Proofs.Text.Offsets

namespace SeedGrammar

/-!
# Spans over text

Positions in a text are byte offsets, and nothing keeps an offset from falling
inside a character but what leaves do.  The leaves of a grammar of texts end
between characters if they start there: characters and regular expressions
consume whole characters, and a literal that stands there byte by byte does so
character by character.  So all positions of a parse are boundaries.

The ends of a match then cut the text in three.  Cutting a text has a result for
offsets inside characters as well, an empty one.  The span of a match is never
that: it is what lies between the ends.
-/

variable {types : TextTypes}

namespace Leaf

variable {atom : Leaf types.signature PatternProgram}

theorem readsWithin_of_readsText (reads : atom.ReadsText) (input : String) :
    atom.ReadsWithin input := by
  cases atom with
  | exact literal => exact exact_readsWithin input literal
  | charset set label read =>
      have isRead : read = Text.charAt := reads
      subst isRead
      exact charset_readsWithin (L := types.signature) input set label
  | pattern source program read =>
      have isRead : read = id := reads
      subst isRead
      exact pattern_readsWithin (L := types.signature) input source program
  | custom name act => exact reads.elim
  | _ => trivial

/-- A leaf that starts between two characters ends between two characters. -/
theorem staysIn_of_readsText (reads : atom.ReadsText) (input : String) :
    atom.StaysIn (Text.IsBoundary input.toList) input := by
  intro self context boundary
  cases atom with
  | exact literal =>
      rw [run]
      split
      · rename_i stands
        exact boundary.behind_literal stands
      · exact boundary
  | charset set label read =>
      have isRead : read = Text.charAt := reads
      subst isRead
      simp only [run]
      split
      · rename_i c width isThere
        split
        · exact Text.isBoundary_behind_char isThere
        · exact boundary
      · exact boundary
  | pattern source program read =>
      have isRead : read = id := reads
      subst isRead
      simp only [run]
      split
      · exact boundary
      · rename_i rest dropped
        split
        · rename_i found isMatch
          have split : Text.dropBytes context.position (id input).toList =
              some (rest.take found.stop ++ rest.drop found.stop) := by
            rw [List.take_append_drop, dropped]
          exact Text.isBoundary_behind split
        · exact boundary
  | empty => exact boundary
  | eof =>
      rw [run]
      split
      · exact boundary
      · exact boundary
  | fail message payload => exact boundary
  | custom name act => exact reads.elim

end Leaf

theorem Grammar.readsWithin_of_readsText {grammar : Grammar types.signature}
    (reads : grammar.ReadsText) (input : String) : grammar.ReadsWithin input :=
  fun id atom found => Leaf.readsWithin_of_readsText (reads id atom found) input

theorem Grammar.staysIn_of_readsText {grammar : Grammar types.signature}
    (reads : grammar.ReadsText) (input : String) :
    grammar.StaysIn (Text.IsBoundary input.toList) input :=
  fun id atom found => Leaf.staysIn_of_readsText (reads id atom found) input

/-- Leaves that read texts as such do not wrap around. -/
theorem Event.not_wraps_of_readsText {machine : Machine types.signature}
    (reads : machine.grammar.ReadsText) (event : Event types.signature) :
    ¬event.Wraps machine := by
  intro wraps
  cases event with
  | entered depth id first => exact wraps
  | finished depth id first outcome after =>
      rcases wraps with ⟨clause, found, wraps⟩
      cases clause with
      | leaf atom =>
          have readsText := reads id atom found
          cases atom with
          | custom name act => exact readsText
          | _ => exact wraps
      | _ => exact wraps

/-! ## Tokens -/

/-- Whether the span of a token is what the input has between two boundaries: it
could be cut out there, and its bytes are exactly those between the ends. -/
structure Token.Faithful (token : Token types.signature) : Prop where
  start : Text.IsBoundary (token.input : String).toList token.start
  stop : Text.IsBoundary (token.input : String).toList token.stop
  ordered : token.start ≤ token.stop
  isCut : exists rest cut, Text.dropBytes token.start (token.input : String).toList = some rest ∧
    Text.takeBytes (token.stop - token.start) rest = some cut ∧ token.span = String.ofList cut
  bytes : Text.bytes (token.span : String).toList =
    ((Text.bytes (token.input : String).toList).drop token.start).take (token.stop - token.start)
  length : Text.byteLength (token.span : String).toList = token.stop - token.start

theorem Token.faithful_of_boundaries {token : Token types.signature}
    (start : Text.IsBoundary (token.input : String).toList token.start)
    (stop : Text.IsBoundary (token.input : String).toList token.stop)
    (ordered : token.start ≤ token.stop) : token.Faithful := by
  rcases start.slice stop ordered with ⟨rest, cut, dropped, taken, isSlice, bytes, length⟩
  have isSpan : token.span = String.ofList cut := isSlice
  refine ⟨start, stop, ordered, ⟨rest, cut, dropped, taken, isSpan⟩, ?_, ?_⟩
  · rw [isSpan, String.toList_ofList, bytes]
  · rw [isSpan, String.toList_ofList, length]

section Slices

variable {L : Signature} {type : ValueType L.Kind}

/-- Whether a function replaces values by what was matched. -/
def Transform.Slices (transform : Transform L) : Prop :=
  forall outcome token value, transform outcome token = .ok (.ok value) ->
    value = ⟨.text, token.span⟩

theorem Transform.Slices.andThen {first second : Transform L} (slices : second.Slices) :
    (first.andThen second).Slices := by
  intro outcome token value result
  rw [Transform.andThen] at result
  split at result
  · exact slices _ token value result
  · cases result

/-- The function of a slice of values of a type. -/
def Transform.slicing (type : ValueType L.Kind) : Transform L :=
  Transform.ofTyped type .text fun result token => result.map fun _ => token.span

theorem Transform.slicing_slices : (Transform.slicing type : Transform L).Slices := by
  intro outcome token value result
  cases outcome with
  | error error => cases result
  | ok before =>
      simp only [slicing, ofTyped] at result
      split at result
      · cases result
        rfl
      · cases result

/-- A slice applies this function, perhaps after others on the same match. -/
theorem Parser.slice_slices (parser : Parser L type) (key : Nat) :
    exists inner transform, (parser.slice key).1.expr = .node key (.map inner transform) ∧
      transform.Slices := by
  have isSlice : (parser.slice key).1.expr =
      .node key (parser.expr.transformed (Transform.slicing type)) := rfl
  rw [isSlice]
  unfold Expr.transformed
  split
  · exact ⟨_, _, rfl, Transform.slicing_slices.andThen⟩
  · exact ⟨_, _, rfl, Transform.slicing_slices⟩

end Slices

namespace EntryPoint

section Hands

variable {L : Signature} {type : ValueType L.Kind}

/-- Whether a function of the author's gets a token in the course of a parse.  A
node with such a function is called, and its operand returns: the range is from
where the node was called to where the operand ended.  A function on outcomes
may be applied even to the failure of a limit on nesting, which it cannot
change.  Functions that replace the state only get the tokens of values. -/
inductive Hands (entry : EntryPoint L type) (input : L.Input) (state : L.State) :
    Token L -> Prop where
  | transform {depth id first inner transform steps outcome after} :
      entry.Calls input state depth id first ->
      entry.grammar.nodes[id]? = some (.map inner transform) ->
      ((entry.machine input).run steps (depth + 1) inner first).Returns outcome after ->
      Hands entry input state ⟨input, (first.position, after.position), after.state, id⟩
  | update {depth id first inner next steps value after} :
      entry.Calls input state depth id first ->
      entry.grammar.nodes[id]? = some (.update inner next) ->
      (entry.machine input).run steps (depth + 1) inner first = .finished (.ok value) after ->
      Hands entry input state ⟨input, (first.position, after.position), after.state, id⟩

/-- A slice that finishes with a value comes to the span of a token that its
function gets. -/
theorem span_of_slice {entry : EntryPoint L type} {input : L.Input} {state : L.State}
    {depth : Nat} {id inner : NodeId} {first last : Context L} {transform : Transform L}
    (calls : entry.Calls input state depth id first)
    (found : entry.grammar.nodes[id]? = some (.map inner transform)) (slices : transform.Slices)
    {steps : Nat} {value : Value L}
    (finishes : (entry.machine input).run steps depth id first = .finished (.ok value) last) :
    exists token, entry.Hands input state token ∧ value = ⟨.text, token.span⟩ ∧
      token.input = input ∧ token.range = (first.position, last.position) := by
  cases steps with
  | zero => cases finishes
  | succ steps =>
      have isNode : (entry.machine input).grammar.nodes[id]? = some (.map inner transform) := found
      rw [Machine.run, isNode] at finishes
      split at finishes
      · cases finishes
      · rcases Reply.andThen_eq_finished finishes with ⟨outcome, after, ends, result⟩
        dsimp only at result
        split at result
        · rename_i made isMade
          cases result
          have returns := ends ▸ Reply.Returns.finished
          exact ⟨_, .transform calls found returns, slices _ _ value isMade, rfl, rfl⟩
        · cases result

end Hands

variable {type : ValueType types.Kind} {entry : EntryPoint types.signature type}
  {input : String} {state : types.State}

/-- All that happens in a parse of a text happens between characters. -/
structure SpansFaithful (entry : EntryPoint types.signature type) (input : String)
    (state : types.State) : Prop where
  entered : forall depth id first, entry.Calls input state depth id first ->
    first.StaysIn (Text.IsBoundary input.toList)
  returned : forall depth id first, entry.Calls input state depth id first ->
    forall more outcome last,
      ((entry.machine input).run more depth id first).Returns outcome last ->
        last.StaysIn (Text.IsBoundary input.toList)
  consumed : forall steps result, entry.parseWithin steps input state = .completed result ->
    Text.IsBoundary input.toList result.consumed
  tokens : forall token, entry.Hands input state token -> token.Faithful
  slices : forall depth id first, entry.Calls input state depth id first ->
    forall inner transform, entry.grammar.nodes[id]? = some (.map inner transform) ->
      transform.Slices -> forall more value last,
        (entry.machine input).run more depth id first = .finished (.ok value) last ->
          exists text : String, value = ⟨.text, text⟩ ∧
            Text.bytes text.toList = ((Text.bytes input.toList).drop first.position).take
              (last.position - first.position)

theorem entered_between (reads : entry.grammar.ReadsText) {depth : Nat} {id : NodeId}
    {first : Context types.signature} (calls : entry.Calls input state depth id first) :
    first.StaysIn (Text.IsBoundary input.toList) := by
  rcases calls with ⟨steps, enters⟩
  have starts : (Context.start state : Context types.signature).StaysIn
      (Text.IsBoundary input.toList) := by
    refine ⟨Text.isBoundary_zero _, ?_⟩
    intro key seed planted
    cases planted
  exact ((entry.machine input).run_staysIn (Grammar.staysIn_of_readsText reads input) steps 1
    entry.root starts).2 _ enters

/-- A run from a context of a parse ends between characters, and not before its
start. -/
theorem run_between (reads : entry.grammar.ReadsText) {depth : Nat} {id : NodeId}
    {first : Context types.signature} (calls : entry.Calls input state depth id first)
    {steps place : Nat} {node : NodeId} {outcome : Outcome types.signature}
    {last : Context types.signature}
    (returns : ((entry.machine input).run steps place node first).Returns outcome last) :
    last.StaysIn (Text.IsBoundary input.toList) ∧ first.position ≤ last.position := by
  let machine := entry.machine input
  have readsWithin : machine.grammar.ReadsWithin input :=
    Grammar.readsWithin_of_readsText reads input
  have between := machine.run_staysIn (Grammar.staysIn_of_readsText reads input) steps place node
    (entered_between reads calls)
  rcases calls with ⟨_, enters⟩
  have within := Machine.entered_within readsWithin (Context.start_within _ state) enters
  have covers : machine.Covers fun _ => True := fun _ _ _ _ => trivial
  -- Only leaves of the author's own can make a position go back, and there are none.
  have honours := machine.run_honours readsWithin covers steps place node
    (Machine.within_forward within True)
    fun _ event _ => Event.not_wraps_of_readsText reads event
  exact ⟨between.1.returns_staysIn returns, (honours.1.returns returns).1.forward trivial⟩

/-- The root of a parse is called at its start. -/
theorem calls_root {L : Signature} {type : ValueType L.Kind} (entry : EntryPoint L type)
    (input : L.Input) (state : L.State) :
    entry.Calls input state 1 entry.root (Context.start state) :=
  ⟨1, Machine.mem_trace_succ.mpr (Or.inl rfl)⟩

theorem token_faithful (reads : entry.grammar.ReadsText) {token : Token types.signature}
    (hands : entry.Hands input state token) : token.Faithful := by
  cases hands with
  | transform calls _ returns =>
      have ends := run_between reads calls returns
      exact Token.faithful_of_boundaries (entered_between reads calls).position ends.1.position
        ends.2
  | update calls _ finishes =>
      have ends := run_between reads calls (finishes ▸ Reply.Returns.finished)
      exact Token.faithful_of_boundaries (entered_between reads calls).position ends.1.position
        ends.2

/-- A slice that finishes with a value comes to the bytes that have been passed over. -/
theorem bytes_of_slice (reads : entry.grammar.ReadsText) {depth : Nat} {id inner : NodeId}
    {first last : Context types.signature} {transform : Transform types.signature}
    (calls : entry.Calls input state depth id first)
    (found : entry.grammar.nodes[id]? = some (.map inner transform)) (slices : transform.Slices)
    {steps : Nat} {value : Value types.signature}
    (finishes : (entry.machine input).run steps depth id first = .finished (.ok value) last) :
    exists text : String, value = ⟨.text, text⟩ ∧
      Text.bytes text.toList = ((Text.bytes input.toList).drop first.position).take
        (last.position - first.position) := by
  rcases span_of_slice calls found slices finishes with
    ⟨⟨whole, range, after, node⟩, hands, isSpan, isInput, isRange⟩
  cases isInput
  cases isRange
  exact ⟨_, isSpan, (token_faithful reads hands).bytes⟩

/-- Spans over text are faithful.  A grammar whose leaves read texts as such stays
between characters with all positions and seeds, so each token that a function
gets and each slice spans exactly the bytes between its ends. -/
theorem spans_faithful (entry : EntryPoint types.signature type)
    (reads : entry.grammar.ReadsText) (input : String) (state : types.State) :
    entry.SpansFaithful input state where
  entered _ _ _ calls := entered_between reads calls
  returned _ _ _ calls _ _ _ returns := (run_between reads calls returns).1
  consumed steps result completed := by
    by_cases refuses : entry.Refuses input
    · rw [parseWithin_of_refuses refuses] at completed
      cases completed
      exact Text.isBoundary_zero _
    · rw [parseWithin_of_accepts refuses] at completed
      rcases returns_of_conclude completed with ⟨outcome, last, returns, consumed⟩
      rw [consumed]
      exact (run_between reads (entry.calls_root input state) returns).1.position
  tokens _ hands := token_faithful reads hands
  slices _ _ _ calls _ _ found slices _ _ _ finishes :=
    bytes_of_slice reads calls found slices finishes

/-- The slice of a parser keeps exactly the bytes that it has passed over, wherever in the rules
of a grammar it is. -/
theorem bytes_of_placed_slice {entry : EntryPoint types.signature type}
    {builder : GrammarBuilder types.signature} {place : Expr types.signature -> NodeId}
    (placement : builder.Placement entry.grammar place) (reads : entry.grammar.ReadsText)
    {source : ValueType types.Kind} {parser : Parser types.signature source} {key : Nat}
    (contained : builder.Contains (parser.slice key).1.expr) {depth : Nat}
    {first last : Context types.signature}
    (calls : entry.Calls input state depth (place (parser.slice key).1.expr) first) {steps : Nat}
    {value : Value types.signature}
    (finishes : (entry.machine input).run steps depth (place (parser.slice key).1.expr) first =
      .finished (.ok value) last) :
    exists text : String, value = ⟨.text, text⟩ ∧
      Text.bytes text.toList = ((Text.bytes input.toList).drop first.position).take
        (last.position - first.position) := by
  rcases parser.slice_slices key with ⟨inner, transform, isExpr, slices⟩
  rcases placement.clause _ contained with ⟨compiled, clause, isCompiled, found, corresponds⟩
  have isMap : (parser.slice key).1.expr.clause = .map inner transform := congrArg Expr.clause isExpr
  rw [isMap] at isCompiled
  cases isCompiled
  cases corresponds with
  | map _ => exact bytes_of_slice reads calls found slices finishes

/-- Text with nothing else. -/
def bareTypes : TextTypes :=
  ⟨Unit, Empty, Empty, Empty.elim, Empty.elim, inferInstance⟩

/-- The slice of a word, which is read from the left and of which all parts are
slices. -/
def slicedWord : EntryPoint bareTypes.signature .text :=
  ⟨⟨[.map 1 (Transform.slicing .text), .leftRecursion 2, .choice [3, 5],
      .map 4 (Transform.slicing .text), .sequence [1, 5] (.pick 0),
      .map 6 (Transform.slicing .char),
      .leaf (.charset ⟨[(0xE9, 0xE9), (0x20AC, 0x20AC)]⟩ "letter" Text.charAt)], []⟩, 0,
    ParserConfig.unlimited⟩

/-- The letters take two and three bytes. -/
theorem slicedWord_spans : slicedWord.grammar.ReadsText ∧ slicedWord.SpansFaithful "é€" () ∧
    (exists last, (slicedWord.machine "é€").run 12 1 0 (Context.start ()) =
      .finished (.ok ⟨.text, ("é€" : String)⟩) last ∧ last.position = 5) ∧
    Token.Faithful (⟨("é€" : String), (0, 5), (), 0⟩ : Token bareTypes.signature) := by
  have reads : slicedWord.grammar.ReadsText := by
    intro id atom found
    match id with
    | 0 | 1 | 2 | 3 | 4 | 5 => cases found
    | 6 =>
        cases found
        rfl
    | _ + 7 => cases found
  have faithful := spans_faithful slicedWord reads "é€" ()
  have word : exists last, (slicedWord.machine "é€").run 11 2 1 (Context.start ()) =
      .finished (.ok ⟨.text, ("é€" : String)⟩) last ∧ last.position = 5 ∧ last.state = () :=
    ⟨_, rfl, rfl, rfl⟩
  rcases word with ⟨last, ends, position, state⟩
  have whole : exists last, (slicedWord.machine "é€").run 12 1 0 (Context.start ()) =
      .finished (.ok ⟨.text, ("é€" : String)⟩) last ∧ last.position = 5 := ⟨_, rfl, rfl⟩
  have returns := ends ▸ Reply.Returns.finished
  have hands := Hands.transform (slicedWord.calls_root "é€" ()) rfl returns
  rw [position] at hands
  exact ⟨reads, faithful, whole, faithful.tokens _ hands⟩

end EntryPoint
end SeedGrammar
