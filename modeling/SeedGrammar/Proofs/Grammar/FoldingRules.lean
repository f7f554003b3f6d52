import SeedGrammar.Proofs.Engine.LeftFold
import SeedGrammar.Proofs.Grammar.Typing
import SeedGrammar.Proofs.PlainText

namespace SeedGrammar

/-!
# Rules that fold

The combinators make a rule that folds from a reference to the rule itself, a
tail, a function and a base.  In a built grammar the reference has become the
root of the rule, so the nodes of the rule are where the iteration needs them.
Tail and base can be anything, also references to other rules.
-/

variable {L : Signature}


/-- Whether an expression is the reference to a rule and a tail, combined by a
function, or else a base, with left recursion allowed. -/
inductive Expr.IsLeftFold (name : String) {source part : ValueType L.Kind}
    (tail : Parser L part) (f : FoldFunction L source part) (base : Parser L source) :
    Expr L -> Prop where
  | intro {root either grown step self : Nat} :
      IsLeftFold name tail f base
        (.node root (.leftRecursion (.node either (.choice
          [.node grown (.map
            (.node step (.sequence [.node self (.reference name source none), tail.expr]
              (.pair source part)))
            f.transform),
          base.expr]))))

namespace Parser

variable {source part : ValueType L.Kind}

/-- A rule that folds, made with the combinators. -/
def leftFold (name : String) (tail : Parser L part) (f : FoldFunction L source part)
    (base : Parser L source) : Construction (Parser L source) := do
  let self ← Parser.reference name source
  let step ← self.both tail
  let grown ← step.map f
  let either ← grown.orElse base
  either.leftRecursive

theorem leftFold_isLeftFold (name : String) (tail : Parser L part)
    (f : FoldFunction L source part) (base : Parser L source) (next : Nat) :
    (leftFold name tail f base next).1.expr.IsLeftFold name tail f base :=
  .intro

end Parser

namespace GrammarBuilder

variable {builder : GrammarBuilder L} {grammar : Grammar L} {node : Expr L -> NodeId}
  {longest : Nat} {source part : ValueType L.Kind} {f : FoldFunction L source part}

/-- In a built grammar a rule that folds has the nodes that it should have. -/
theorem Resolution.hasFold (resolution : builder.Resolution grammar node longest)
    {name : String} {tail : Parser L part} {base parser : Parser L source}
    (isFold : parser.expr.IsLeftFold name tail f base)
    (member : (⟨name, source, parser⟩ : Definition L) ∈ builder.definitions)
    (found : builder.definition? name = some ⟨name, source, parser⟩) :
    exists nodes : FoldNodes, nodes.root = node parser.expr ∧ nodes.tail = node tail.expr ∧
      nodes.base = node base.expr ∧ builder.Contains tail.expr ∧ builder.Contains base.expr ∧
      grammar.HasFold nodes f := by
  have closed := builder.contains_operandClosed
  have rootContained : builder.Contains parser.expr := contains_root member
  have selfNode : forall self, builder.Contains (.node self (.reference name source none)) ->
      node (.node self (.reference name source none)) = node parser.expr := by
    intro self contained
    rcases resolution.reference _ name source none contained rfl with
      ⟨definition, isDefinition, _, sameNode⟩
    rw [found] at isDefinition
    cases isDefinition
    exact sameNode
  generalize parser.expr = expr at isFold rootContained selfNode
  cases isFold with
  | @intro root either grown step self =>
      have eitherContained := closed _ _ rootContained (List.mem_singleton.mpr rfl)
      have grownContained := closed _ _ eitherContained (List.mem_cons_self ..)
      have baseContained := closed _ _ eitherContained
        (List.mem_cons_of_mem _ (List.mem_singleton.mpr rfl))
      have stepContained := closed _ _ grownContained (List.mem_singleton.mpr rfl)
      have selfContained := closed _ _ stepContained (List.mem_cons_self ..)
      have tailContained := closed _ _ stepContained
        (List.mem_cons_of_mem _ (List.mem_singleton.mpr rfl))
      have stepFound := resolution.nodes_eq stepContained rfl rfl
      simp only [Clause.mapOperands, List.map_cons, List.map_nil, selfNode self selfContained]
        at stepFound
      exact ⟨⟨_, _, _, _, _, _⟩, rfl, rfl, rfl, tailContained, baseContained,
        resolution.nodes_eq rootContained rfl rfl, resolution.nodes_eq eitherContained rfl rfl,
        resolution.nodes_eq grownContained rfl rfl, stepFound⟩

/-- Left recursion is a left fold.  A rule that is itself and a tail, combined by a
function, or else a base, comes in every context without a seed for it to what
the iteration comes to, if no left recursion can be reached from tail and base:
it finishes if and only if the iteration does, and in no other way. -/
theorem build_leftFold {cache after : PatternCache} {built : BuiltGrammar L}
    (sound : cache.Sound) (coherent : Coherent builder.Contains)
    (accepted : builder.build cache = (.ok built, after)) {name : String}
    {tail : Parser L part} {base parser : Parser L source}
    (isFold : parser.expr.IsLeftFold name tail f base)
    (member : (⟨name, source, parser⟩ : Definition L) ∈ builder.definitions) :
    exists nodes : FoldNodes, built.grammar.ruleId? name = some nodes.root ∧
      built.grammar.HasFold nodes f ∧
      (built.grammar.LoopFree nodes.tail -> built.grammar.LoopFree nodes.base ->
        forall (input : L.Input) (context : Context L),
          context.seeds.get? nodes.root context.position = none ->
          forall depth,
            (forall steps,
              (built.grammar.machine input).run steps depth nodes.root context ≠ .exhausted ->
                exists outcome last,
                  (built.grammar.machine input).run steps depth nodes.root context =
                      .finished outcome last ∧
                    (built.grammar.machine input).FoldsLeft nodes f context.snapshot outcome
                      last.snapshot) ∧
            (forall outcome last,
              (built.grammar.machine input).FoldsLeft nodes f context.snapshot outcome last ->
                exists enough, forall steps, enough ≤ steps -> exists after,
                  (built.grammar.machine input).run steps depth nodes.root context =
                      .finished outcome after ∧ after.snapshot = last)) := by
  rcases build_resolves sound coherent accepted with ⟨node, longest, resolution⟩
  have found := definition?_of_mem (build_accepted accepted).1 member
  rcases resolution.hasFold isFold member found with
    ⟨nodes, isRoot, isTail, isBase, tailContained, baseContained, hasFold⟩
  refine ⟨nodes, ?_, hasFold, ?_⟩
  · rw [Grammar.ruleId?, resolution.rule _ member, Option.map_some, isRoot]
  · intro tailFree baseFree input context absent depth
    have folding : (built.grammar.machine input).Folding nodes f
        (Resolution.Types builder node) :=
      ⟨rfl, hasFold, resolution.typing, ⟨_, tailContained, tail.typed, isTail.symm⟩,
        ⟨_, baseContained, base.typed, isBase.symm⟩, tailFree, baseFree⟩
    constructor
    · intro steps ends
      exact Machine.foldsLeft_of_run folding absent ends
    · intro outcome last folds
      exact Machine.run_of_foldsLeft folding absent folds depth

/-! ## Sums -/

/-- Writes out the sum of two terms. -/
def writtenSum : FoldFunction plainText .text .text :=
  fun (pair : String × String) _ => "(" ++ pair.1 ++ "+" ++ pair.2 ++ ")"

/-- A term of a sum. -/
def sumTerm : Parser plainText .text :=
  (Parser.exact "1" 0).1

/-- One more term of a sum. -/
def sumTail : Parser plainText .text :=
  ((do (← Parser.exact "+").thenRight sumTerm : Construction (Parser plainText .text)) 1).1

/-- A sum, which begins with a sum and ends with one more term. -/
def sumParser : Parser plainText .text :=
  (Parser.leftFold "sum" sumTail writtenSum sumTerm 3).1

/-- The rule of sums. -/
def sums : GrammarBuilder plainText := ⟨[⟨"sum", .text, sumParser⟩]⟩

/-- The nodes of the rule of sums. -/
def sumGrammar : Grammar plainText :=
  ⟨[.reference "sum" .text (some 7), .leaf (.exact "+"), .leaf (.exact "1"),
      .sequence [1, 2] (.pick 1), .sequence [7, 3] (.pair .text .text),
      .map 4 writtenSum.transform, .choice [5, 2], .leftRecursion 6],
    [⟨"sum", .text, 7⟩]⟩

theorem sums_coherent : Coherent sums.Contains := by
  let one : Expr plainText := .node 0 (.leaf (.exact "1"))
  let plus : Expr plainText := .node 1 (.leaf (.exact "+"))
  let tail : Expr plainText := .node 2 (.sequence [plus, one] (.pick 1))
  let self : Expr plainText := .node 3 (.reference "sum" .text none)
  let step : Expr plainText := .node 4 (.sequence [self, tail] (.pair .text .text))
  let grown : Expr plainText := .node 5 (.map step writtenSum.transform)
  let either : Expr plainText := .node 6 (.choice [grown, one])
  have keys : KeysBelow 1 [one] := (KeysBelow.none 0).over _ (List.nil_subset _)
  have keys : KeysBelow 2 [plus, one] := keys.over _ (List.nil_subset _)
  have keys : KeysBelow 3 [tail, plus, one] := keys.over _ (List.Subset.refl _)
  have keys : KeysBelow 4 [self, tail, plus, one] := keys.over _ (List.nil_subset _)
  have keys : KeysBelow 5 [step, self, tail, plus, one] := by
    apply keys.over
    simp [Clause.children]
  have keys : KeysBelow 6 [grown, step, self, tail, plus, one] := by
    apply keys.over
    simp [Clause.children]
  have keys : KeysBelow 7 [either, grown, step, self, tail, plus, one] := by
    apply keys.over
    simp [Clause.children]
  apply (keys.over (.leftRecursion either) (by simp [Clause.children])).contains_coherent
  intro definition member
  rw [List.mem_singleton.mp member]
  exact List.mem_cons_self ..

theorem sums_accepted : exists known,
    sums.build PatternCache.empty = (.ok ⟨sumGrammar, known⟩, PatternCache.empty) :=
  ⟨_, rfl⟩

/-- A sum of three terms is read from the left. -/
theorem sums_from_left : exists root, sumGrammar.ruleId? "sum" = some root ∧
    exists enough, forall steps, enough ≤ steps -> exists after,
      (sumGrammar.machine "1+1+1").run steps 1 root (Context.start ()) =
          .finished (.ok ⟨.text, "((1+1)+1)"⟩) after ∧ after.snapshot = ⟨5, ()⟩ := by
  rcases sums_accepted with ⟨known, accepted⟩
  rcases build_leftFold PatternCache.empty_sound sums_coherent accepted
      (Parser.leftFold_isLeftFold "sum" sumTail writtenSum sumTerm 3)
      (List.mem_singleton.mpr rfl) with
    ⟨⟨root, either, grown, step, tail, base⟩, isRoot, isFold, comes⟩
  have rootEq : 7 = root := Option.some.inj isRoot
  subst rootEq
  have eitherEq : 6 = either := Clause.leftRecursion.inj (Option.some.inj isFold.root)
  subst eitherEq
  have alts : [5, 2] = [grown, base] := Clause.choice.inj (Option.some.inj isFold.either)
  cases alts
  have stepEq : 4 = step := (Clause.map.inj (Option.some.inj isFold.grown)).1
  subst stepEq
  have items : [7, 3] = [7, tail] := (Clause.sequence.inj (Option.some.inj isFold.step)).1
  cases items
  have free : sumGrammar.LoopFree 3 ∧ sumGrammar.LoopFree 2 := by decide
  refine ⟨7, rfl, (comes free.1 free.2 "1+1+1" (Context.start ()) rfl 1).2 _ _ ?_⟩
  have term : (sumGrammar.machine "1+1+1").Comes 2 ⟨0, ()⟩ (.ok ⟨.text, "1"⟩) ⟨1, ()⟩ :=
    ⟨1, ⟨1, (), (0, 0), SeedTable.empty⟩, rfl, rfl⟩
  have second : (sumGrammar.machine "1+1+1").Comes 3 ⟨1, ()⟩ (.ok ⟨.text, "1"⟩) ⟨3, ()⟩ :=
    ⟨2, ⟨3, (), (0, 0), SeedTable.empty⟩, rfl, rfl⟩
  have third : (sumGrammar.machine "1+1+1").Comes 3 ⟨3, ()⟩ (.ok ⟨.text, "1"⟩) ⟨5, ()⟩ :=
    ⟨2, ⟨5, (), (0, 0), SeedTable.empty⟩, rfl, rfl⟩
  have none : (sumGrammar.machine "1+1+1").Comes 3 ⟨5, ()⟩
      (.error ((ParseError.bare 5).withNode 1)) ⟨5, ()⟩ :=
    ⟨2, ⟨5, (), (0, 0), SeedTable.empty⟩, rfl, rfl⟩
  have afterAll : (sumGrammar.machine "1+1+1").FoldsFrom ⟨7, 6, 5, 4, 3, 2⟩ writtenSum 0
      "((1+1)+1)" ⟨5, ()⟩ (.ok ⟨.text, "((1+1)+1)"⟩) ⟨5, ()⟩ := .done none (Nat.le_refl 5)
  have afterTwo : (sumGrammar.machine "1+1+1").FoldsFrom ⟨7, 6, 5, 4, 3, 2⟩ writtenSum 0
      "(1+1)" ⟨3, ()⟩ (.ok ⟨.text, "((1+1)+1)"⟩) ⟨5, ()⟩ := .more third (by decide) afterAll
  have afterOne : (sumGrammar.machine "1+1+1").FoldsFrom ⟨7, 6, 5, 4, 3, 2⟩ writtenSum 0
      "1" ⟨1, ()⟩ (.ok ⟨.text, "((1+1)+1)"⟩) ⟨5, ()⟩ := .more second (by decide) afterTwo
  exact .grows term Nat.zero_lt_one afterOne

end GrammarBuilder
end SeedGrammar
