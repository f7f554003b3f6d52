import SeedGrammar.Proofs.Engine.Positions
import SeedGrammar.Proofs.Grammar.WellFormed
import SeedGrammar.Proofs.Pattern.Anchoring
import SeedGrammar.Proofs.Text.Offsets

namespace SeedGrammar

/-!
# What the match of a regular expression takes in

A leaf with a regular expression goes on from the end of its match and does not look
at where this starts.  It relies on the anchor that its source is wrapped up with.
The text of group zero always ends where the leaf ends.  It starts where the leaf
starts, too, unless the source has a bar outside of all groups, which takes the
anchor away from what follows: `GrammarBuilder.build_captures_spanned`.

A source can only have such a bar if it closes the group that it is wrapped up in.
There are sources like that, and they are accepted, as the pattern that they are
wrapped up to is valid.  Their leaves can skip text: `GrammarBuilder.splitting_skips`.
-/

variable {L : Signature}

/-- Whether a value is that of a match whose group zero is the text between two
places. -/
def Value.TakesIn (value : Value L) (text : String) (start stop : Nat) : Prop :=
  exists captures, value = ⟨.captures, captures⟩ ∧
    captures.group? 0 = some (Text.slice text start stop)

/-- A leaf takes in the text from some place to its end, which is where it starts
unless its source splits. -/
theorem Leaf.pattern_takesIn {source : String} {program : PatternProgram}
    (compiled : Pattern.compile? source = some program) {text : L.Input -> String} {input : L.Input}
    {self : NodeId} {context after : Context L} {value : Value L}
    (isRun : (pattern source program text : Leaf L PatternProgram).run input self context =
      (.ok value, after)) :
    exists start, context.position ≤ start ∧ start ≤ after.position ∧
      value.TakesIn (text input) start after.position ∧
      (start = context.position ∨ Pattern.Splits source) := by
  rcases Pattern.compile?_framed compiled with ⟨program, rfl, framed, anchors⟩
  simp only [run] at isRun
  split at isRun
  · cases isRun
  · rename_i rest dropped
    split at isRun
    · rename_i found matched
      rcases program.find?_captures framed matched with
        ⟨skipped, cut, behind, isRest, isTaken, isGroup, starts⟩
      cases isRun
      rcases Text.dropBytes_eq_some.mp dropped with ⟨before, isText, isBefore⟩
      let start := context.position + Text.byteLength skipped
      have isStop : context.position + Text.byteLength (rest.take found.stop) =
          start + Text.byteLength cut := by
        rw [isTaken, Text.byteLength_append, Nat.add_assoc]
      have isCut : (text input).toList = (before ++ skipped) ++ (cut ++ behind) := by
        rw [isText, isRest, List.append_assoc]
      have isSlice := Text.slice_eq_cut isCut
      rw [Text.byteLength_append, isBefore] at isSlice
      rw [isStop]
      refine ⟨start, Nat.le_add_right _ _, Nat.le_add_right _ _, ⟨_, rfl, ?_⟩, ?_⟩
      · rw [isGroup, isSlice]
      · rcases anchors with anchored | splits
        · left
          change context.position + Text.byteLength skipped = context.position
          rw [starts anchored]
          rfl
        · exact Or.inr splits
    · cases isRun

/-- Whether every match of a regular expression takes in all that its leaf passes
over. -/
def Grammar.TakesInAll (grammar : Grammar L) : Prop :=
  forall (id : NodeId) source program text,
    grammar.nodes[id]? = some (.leaf (.pattern source program text)) ->
      forall input steps context value after,
        (grammar.machine input).run steps 1 id context = .finished (.ok value) after ->
          value.TakesIn (text input) context.position after.position

theorem Leaf.compile?_of_compiled {written : Leaf L Unit} {source : String}
    {program : PatternProgram} {text : L.Input -> String}
    (isCompiled : written.compiled? = some (.pattern source program text)) :
    Pattern.compile? source = some program := by
  cases written with
  | pattern source' _ text' =>
      rcases Option.map_eq_some_iff.mp isCompiled with ⟨program', compiled, same⟩
      cases same
      exact compiled
  | exact literal =>
      rw [compiled?] at isCompiled
      split at isCompiled
      · cases isCompiled
      · cases isCompiled
  | _ => cases isCompiled

namespace GrammarBuilder

/-- The program of a leaf of a built grammar is that of its source. -/
theorem build_compiled {builder : GrammarBuilder L} {cache later : PatternCache}
    {built : BuiltGrammar L} (sound : cache.Sound) (coherent : Coherent builder.Contains)
    (accepted : builder.build cache = (.ok built, later)) {id : NodeId} {source : String}
    {program : PatternProgram} {text : L.Input -> String}
    (found : built.grammar.nodes[id]? = some (.leaf (.pattern source program text))) :
    Pattern.compile? source = some program := by
  rcases build_placed sound coherent accepted with ⟨place, placement⟩
  rcases placement.clause_of_found found with ⟨expr, compiled, _, isCompiled, corresponds⟩
  cases corresponds with
  | leaf same =>
      subst same
      have written := Clause.corresponds_compiled isCompiled
      generalize expr.clause = clause at written
      cases written with
      | leaf isAtom => exact Leaf.compile?_of_compiled isAtom

/-- When a regular expression of a built grammar succeeds, group zero is the text up
to the end of the leaf.  It is the text from the start of the leaf as well, unless the
source has a bar outside of all groups when it is anchored. -/
theorem build_captures_spanned {builder : GrammarBuilder L} {cache later : PatternCache}
    {built : BuiltGrammar L} (sound : cache.Sound) (coherent : Coherent builder.Contains)
    (accepted : builder.build cache = (.ok built, later)) {id : NodeId} {source : String}
    {program : PatternProgram} {text : L.Input -> String}
    (found : built.grammar.nodes[id]? = some (.leaf (.pattern source program text)))
    {input : L.Input} {steps depth : Nat} {context after : Context L} {value : Value L}
    (succeeds : (built.grammar.machine input).run steps depth id context =
      .finished (.ok value) after) :
    exists start, context.position ≤ start ∧ start ≤ after.position ∧
      value.TakesIn (text input) start after.position ∧
      (start = context.position ∨ Pattern.Splits source) := by
  have compiled := build_compiled sound coherent accepted found
  exact Leaf.pattern_takesIn compiled (Machine.run_leaf found succeeds)

/-- A source that closes the group it is wrapped into, and has a bar behind it. -/
def splitting : GrammarBuilder plainText :=
  ⟨[⟨"split", .captures, (Parser.regex "a)|(b" 0).1⟩]⟩

/-- The node of the rule with the source that splits. -/
def splittingGrammar (program : PatternProgram) : Grammar plainText :=
  ⟨[.leaf (.pattern "a)|(b" program CharStream.text)], [⟨"split", .captures, 0⟩]⟩

theorem splitting_compiled : exists program, Pattern.compile? "a)|(b" = some program ∧
    program.find? ['x', 'b'] = some ⟨2, ⟨[some "b", some "b"]⟩⟩ := by
  apply Option.bind_eq_some_iff.mp
  decide +kernel

/-- The grammar is accepted, here with a cache that has the source from before. -/
theorem splitting_accepted {program : PatternProgram}
    (compiled : Pattern.compile? "a)|(b" = some program) : exists cache : PatternCache,
    cache.Sound ∧ splitting.build cache =
      (.ok ⟨splittingGrammar program, Nullability.unknown 1⟩, cache) := by
  refine ⟨⟨[(Pattern.anchored "a)|(b", program)]⟩, ?_, rfl⟩
  have filled : (PatternCache.empty.getOrCompile "a)|(b").2 =
      ⟨[(Pattern.anchored "a)|(b", program)]⟩ := by
    rw [PatternCache.getOrCompile, compiled]
    rfl
  rw [<- filled]
  exact (PatternCache.getOrCompile_sound PatternCache.empty_sound "a)|(b").2

theorem splitting_coherent : Coherent splitting.Contains := by
  let atom : Leaf plainText Unit := .pattern "a)|(b" () CharStream.text
  apply ((KeysBelow.none 0).over (.leaf atom) (List.nil_subset _)).contains_coherent
  intro definition member
  rw [List.mem_singleton.mp member]
  exact List.mem_cons_self ..

theorem splitting_succeeds {program : PatternProgram}
    (matched : program.find? ['x', 'b'] = some ⟨2, ⟨[some "b", some "b"]⟩⟩) :
    ((splittingGrammar program).machine "xb").run 1 1 0 (Context.start ()) =
      .finished (.ok ⟨.captures, ⟨[some "b", some "b"]⟩⟩) ⟨2, (), (0, 0), SeedTable.empty⟩ := by
  let machine := (splittingGrammar program).machine "xb"
  let atom : Leaf plainText PatternProgram := .pattern "a)|(b" program CharStream.text
  have isLeaf : machine.grammar.nodes[0]? = some (.leaf atom) := rfl
  have isInput : machine.input = "xb" := rfl
  have dropped : Text.dropBytes (Context.start () : Context plainText).position
      (CharStream.text (S := plainText.Input) "xb").toList = some ['x', 'b'] := rfl
  have isRun : atom.run "xb" 0 (Context.start ()) =
      Leaf.matched (Context.start ()) ⟨.captures, ⟨[some "b", some "b"]⟩⟩
        (0 + Text.byteLength (['x', 'b'].take 2)) := by
    simp only [atom, Leaf.run, dropped, matched]
    rfl
  rw [Machine.run_clause rfl isLeaf, Clause.run, isInput, isRun]
  rfl

/-- The second branch is not anchored, and matches behind the letter that it skips. -/
theorem splitting_spanned : exists program cache, cache.Sound ∧
    splitting.build cache = (.ok ⟨splittingGrammar program, Nullability.unknown 1⟩, cache) ∧
      exists value after, ((splittingGrammar program).machine "xb").run 1 1 0 (Context.start ()) =
          .finished (.ok value) after ∧
        exists start, start ≤ after.position ∧ value.TakesIn "xb" start after.position ∧
          (start = 0 ∨ Pattern.Splits "a)|(b") := by
  rcases splitting_compiled with ⟨program, compiled, matched⟩
  rcases splitting_accepted compiled with ⟨cache, sound, accepted⟩
  have succeeds := splitting_succeeds matched
  rcases build_captures_spanned sound splitting_coherent accepted rfl succeeds with
    ⟨start, _, inside, takesIn, starts⟩
  exact ⟨program, cache, sound, accepted, _, _, succeeds, start, inside, takesIn, starts⟩

/-- The leaf passes over a letter that is no part of its match. -/
theorem splitting_skips : exists program cache, cache.Sound ∧
    splitting.build cache = (.ok ⟨splittingGrammar program, Nullability.unknown 1⟩, cache) ∧
      ¬(splittingGrammar program).TakesInAll := by
  rcases splitting_compiled with ⟨program, compiled, matched⟩
  rcases splitting_accepted compiled with ⟨cache, sound, accepted⟩
  refine ⟨program, cache, sound, accepted, ?_⟩
  intro takesInAll
  rcases takesInAll 0 _ _ _ rfl "xb" 1 (Context.start ()) _ _ (splitting_succeeds matched) with
    ⟨captures, isValue, isGroup⟩
  cases isValue
  exact absurd isGroup (by decide)

end GrammarBuilder
end SeedGrammar
