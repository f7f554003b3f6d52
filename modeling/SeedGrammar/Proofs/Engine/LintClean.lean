import Mathlib.Data.Fintype.Card
import Mathlib.Data.Fintype.EquivFin
import SeedGrammar.Proofs.Engine.IdleMatches
import SeedGrammar.Proofs.Grammar.FoldingRules
import SeedGrammar.Proofs.Grammar.LeftPath

namespace SeedGrammar

/-!
# Grammars without reported left recursion

Without a limit on nesting a parse can only run on for ever if nodes call each
other at one position again and again.  Such calls follow left edges, except
that a left recursion calls its operand after it has planted a seed, and there
are only so many nodes that can do so at one position.

In a built grammar a cycle of left edges passes the root of a rule, so it is
reported if the parse can come to it.  Where nothing is reported, left edges go
down a finite order.  Then three things decrease together, the first that
changes being the one that counts: the input that is left, the nodes without a
seed at the position, and the node in that order.

What authors contribute has to fit what the lint takes for granted: leaves of
their own consume, and no function turns a failure into a value.
-/

variable {L : Signature}

/-- What the lint takes for granted about a grammar. -/
structure Grammar.Plain (grammar : Grammar L) (input : L.Input) : Prop where
  noLookahead : grammar.NoLookahead
  noRecovery : forall (id inner : NodeId) transform,
    grammar.nodes[id]? = some (.map inner transform) -> ¬transform.Recovers
  consumes : forall (id : NodeId) name act, grammar.nodes[id]? = some (.leaf (.custom name act)) ->
    forall position state value count, position ≤ Stream.length input ->
      act input position state = .ok (value, count) ->
        position < min (wordAdd position count) (Stream.length input)
  matchesEmpty : forall (id : NodeId) source program text,
    grammar.nodes[id]? = some (.leaf (.pattern source program text)) ->
      forall rest found, program.find? rest = some found -> found.stop = 0 ->
        program.isMatch [] = true

namespace Grammar

variable {grammar : Grammar L}

/-! ## Nullability -/

/-- A leaf that matches without consuming counts as nullable. -/
theorem isNullable_of_idles {input : L.Input} (plain : grammar.Plain input)
    (reads : grammar.ReadsWithin input) (ordered : grammar.Ordered) {id : NodeId}
    {atom : Leaf L PatternProgram} (found : grammar.nodes[id]? = some (.leaf atom))
    (idles : atom.Idles input) : atom.isNullable = true := by
  rcases idles with ⟨self, context, value, after, inside, isRun, stays⟩
  apply Leaf.isNullable_of_stays (reads id atom found) _ _ isRun stays
  · rintro literal rfl
    exact ordered.literals id literal found
  · intro unforeseen
    cases unforeseen with
    | @pattern source program text no =>
        have yes : program.isMatch [] = true := by
          rcases Leaf.pattern_idles isRun stays with ⟨rest, result, matched, start | ended⟩
          · exact plain.matchesEmpty id source program text found rest result matched start
          · rw [ended] at matched
            exact Option.isSome_iff_exists.mpr ⟨result, matched⟩
        rw [yes] at no
        cases no
    | @custom name act =>
        simp only [Leaf.run] at isRun
        cases result : act input context.position context.state with
        | error rejection =>
            rw [result] at isRun
            cases rejection <;> cases isRun
        | ok reported =>
            rcases reported with ⟨value', count⟩
            simp only [result] at isRun
            cases isRun
            have consumes := plain.consumes id name act found _ _ _ count inside result
            have same : min (wordAdd context.position count) (Stream.length input) =
                context.position := stays
            omega

/-- Every node that can match without advancing is nullable. -/
theorem nullable_covers {machine : Machine L} (plain : machine.grammar.Plain machine.input)
    (reads : machine.grammar.ReadsWithin machine.input) (ordered : machine.grammar.Ordered)
    (advances : forall (id : NodeId) clause, machine.grammar.nodes[id]? = some clause ->
      machine.grammar.Advances clause) :
    machine.Covers machine.grammar.Nullable := by
  intro id clause found idle
  have foreseen : clause.Foreseen machine.grammar.Nullable := by
    constructor
    · rintro atom rfl
      exact isNullable_of_idles plain reads ordered found idle
    · rintro inner transform rfl
      exact plain.noRecovery id inner transform found
    · rintro inner look negative rfl
      exact absurd found (plain.noLookahead id inner look negative)
    · rintro inner element min max rfl
      exact advances id _ found
  exact (nullable_iff_of_found found).mpr (foreseen.nullableFrom idle)

/-! ## The order of left edges -/

theorem mem_children_of_leftOperand {nullable : NodeId -> Prop} {operand : NodeId}
    {clause : Clause L PatternProgram NodeId} (isLeft : clause.LeftOperand nullable operand) :
    operand ∈ clause.children := by
  cases clause with
  | leaf atom => exact isLeft.elim
  | map inner transform => exact List.mem_singleton.mpr isLeft
  | update inner next => exact List.mem_singleton.mpr isLeft
  | sequence items gather =>
      rcases isLeft with ⟨before, after, rfl, _⟩
      exact List.mem_append_right before List.mem_cons_self
  | choice alts => exact isLeft
  | optional inner element => exact List.mem_singleton.mpr isLeft
  | attempt inner => exact List.mem_singleton.mpr isLeft
  | lookahead inner look negative =>
      rcases isLeft with rfl | ⟨rfl, _⟩
      · exact List.mem_cons_self
      · exact List.mem_cons_of_mem _ List.mem_cons_self
  | repeated inner element min max => exact List.mem_singleton.mpr isLeft
  | reference name expected target => exact isLeft.elim
  | leftRecursion inner => exact isLeft.elim

theorem LeftEdge.edge {id operand : NodeId} (isLeft : grammar.LeftEdge id operand) :
    grammar.Edge Clause.children id operand := by
  rcases isLeft with ⟨clause, found, isOperand⟩
  exact ⟨clause, found, mem_children_of_leftOperand isOperand⟩

/-- Left edges lead to smaller numbers or past the root of a rule. -/
theorem leftPath_descends (ordered : grammar.Ordered) {id last : NodeId}
    (path : Relation.TransGen grammar.LeftEdge id last) :
    last < id ∨ exists rule, rule ∈ grammar.rules ∧
      Relation.ReflTransGen grammar.LeftEdge id rule.root ∧
      Relation.ReflTransGen grammar.LeftEdge rule.root last := by
  induction path with
  | single edge =>
      rcases ordered.descends edge.edge with smaller | ⟨rule, member, rfl⟩
      · exact Or.inl smaller
      · exact Or.inr ⟨rule, member, .single edge, .refl⟩
  | tail before edge inductionHypothesis =>
      rcases ordered.descends edge.edge with smaller | ⟨rule, member, rfl⟩
      · rcases inductionHypothesis with below | ⟨rule, member, toRoot, fromRoot⟩
        · exact Or.inl (Nat.lt_trans smaller below)
        · exact Or.inr ⟨rule, member, toRoot, fromRoot.tail edge⟩
      · exact Or.inr ⟨rule, member, before.to_reflTransGen.tail edge, .refl⟩

/-- If no rule that a node leads to leads back to itself, no node does. -/
theorem no_leftCycle (ordered : grammar.Ordered) {root : NodeId}
    (clean : forall rule, rule ∈ grammar.rules -> grammar.Path Clause.children root rule.root ->
      ¬Relation.TransGen grammar.LeftEdge rule.root rule.root)
    {id : NodeId} (path : grammar.Path Clause.children root id) :
    ¬Relation.TransGen grammar.LeftEdge id id := by
  intro cycle
  rcases leftPath_descends ordered cycle with smaller | ⟨rule, member, toRoot, fromRoot⟩
  · exact Nat.lt_irrefl _ smaller
  · have rootPath : grammar.Path Clause.children root rule.root :=
      path.trans (Relation.ReflTransGen.mono (fun _ _ => LeftEdge.edge) _ _ toRoot)
    have rootCycle : Relation.TransGen grammar.LeftEdge rule.root rule.root :=
      (Relation.TransGen.trans_right fromRoot cycle).trans_left toRoot
    exact clean rule member rootPath rootCycle

/-- Whether one of the nodes that can be reached comes before another along left
edges. -/
def LeftBelow (grammar : Grammar L) (root : NodeId) (below above : Fin grammar.nodeCount) : Prop :=
  grammar.Path Clause.children root above ∧
    Relation.TransGen grammar.LeftEdge above.val below.val

theorem leftBelow_wellFounded {root : NodeId}
    (acyclic : forall {id}, grammar.Path Clause.children root id ->
      ¬Relation.TransGen grammar.LeftEdge id id) :
    WellFounded (grammar.LeftBelow root) := by
  have : IsTrans _ (grammar.LeftBelow root) :=
    ⟨fun _ _ _ first second => ⟨second.1, second.2.trans first.2⟩⟩
  have : Std.Irrefl (grammar.LeftBelow root) :=
    ⟨fun _ cycle => acyclic cycle.1 cycle.2⟩
  exact Finite.wellFounded_of_trans_of_irrefl _

end Grammar

/-! ## The measure -/

namespace Context

/-- The nodes, of so many, without a seed at the position of a context. -/
def unseeded (context : Context L) (count : Nat) : Finset NodeId :=
  (Finset.range count).filter fun id => context.seedAt (id, context.position) = none

variable {bounds : Bounds L} {first after : Context L}

/-- No seed is lost at a position. -/
theorem Reaches.unseeded_subset (reaches : first.Reaches bounds after)
    (here : after.position = first.position) (count : Nat) :
    after.unseeded count ⊆ first.unseeded count := by
  intro id member
  rw [unseeded, Finset.mem_filter, here] at member
  refine Finset.mem_filter.mpr ⟨member.1, ?_⟩
  cases planted : first.seedAt (id, first.position) with
  | none => rfl
  | some seed =>
      have absent := member.2
      rw [reaches.keeps _ seed planted] at absent
      cases absent

/-- A seed that is planted at a position makes one node less. -/
theorem Reaches.unseeded_ssubset (reaches : first.Reaches bounds after)
    (here : after.position = first.position) {count : Nat} {id : NodeId} (isNode : id < count)
    (absent : first.seedAt (id, first.position) = none)
    (planted : after.seedAt (id, first.position) ≠ none) :
    after.unseeded count ⊂ first.unseeded count := by
  refine Finset.ssubset_iff_of_subset (reaches.unseeded_subset here count) |>.mpr ⟨id, ?_, ?_⟩
  · exact Finset.mem_filter.mpr ⟨Finset.mem_range.mpr isNode, absent⟩
  · intro member
    rw [unseeded, Finset.mem_filter, here] at member
    exact planted member.2

end Context

namespace Machine

variable {machine : Machine L}

/-- If left edges go down an order among the nodes that a root leads to, all of
these nodes answer. -/
theorem answers_of_wellFounded (reads : machine.grammar.ReadsWithin machine.input)
    (fits : machine.grammar.CountsFit machine.input)
    (covers : machine.Covers machine.grammar.Nullable)
    (unlimited : machine.maxDepth = 0) (inRange : machine.grammar.InRange) {root : NodeId}
    (order : WellFounded (machine.grammar.LeftBelow root)) (gap missing : Nat)
    (node : Fin machine.grammar.nodeCount) {depth : Nat} {context : Context L}
    (path : machine.grammar.Path Clause.children root node)
    (within : context.Within (machine.bounds True))
    (isGap : Stream.length machine.input - context.position = gap)
    (isMissing : (context.unseeded machine.grammar.nodeCount).card = missing) :
    machine.Answers depth node context := by
  induction gap using Nat.strong_induction_on generalizing missing node depth context with
  | h gap fartherOn =>
  induction missing using Nat.strong_induction_on generalizing node depth context with
  | h missing moreSeeds =>
  induction node using order.induction generalizing depth context with
  | h node leftward =>
      have free : ¬(0 < machine.maxDepth ∧ machine.maxDepth < depth) := by omega
      have found : machine.grammar.nodes[node.val]? = some machine.grammar.nodes[node.val] :=
        List.getElem?_eq_getElem node.isLt
      apply answers_of_calls reads fits covers free found within
      rintro operand reached ⟨isChild, reaches, atSamePlace⟩
      have edge : machine.grammar.Edge Clause.children node operand := ⟨_, found, isChild⟩
      let child : Fin machine.grammar.nodeCount := ⟨operand, inRange edge⟩
      have childPath : machine.grammar.Path Clause.children root child := path.tail edge
      have ahead : context.position ≤ reached.position := reaches.forward trivial
      have inside : reached.position ≤ Stream.length machine.input := reaches.within.position
      by_cases here : reached.position = context.position
      · have stays : context.Stays (machine.bounds True) reached :=
          ⟨trivial, Nat.le_of_eq here⟩
        have sameGap : Stream.length machine.input - reached.position = gap := by rw [here, isGap]
        have seeds := Finset.card_le_card
          (reaches.unseeded_subset here machine.grammar.nodeCount)
        by_cases fewer : (reached.unseeded machine.grammar.nodeCount).card < missing
        · exact moreSeeds _ fewer child childPath reaches.within sameGap rfl
        · -- No seed has been planted, so the call is one of a left operand.
          have same : (reached.unseeded machine.grammar.nodeCount).card = missing := by omega
          rcases atSamePlace stays with isLeft | plants
          · have below : machine.grammar.LeftBelow root child node :=
              ⟨path, .single ⟨_, found, isLeft⟩⟩
            exact leftward child below childPath reaches.within sameGap same
          · cases isClause : machine.grammar.nodes[node.val] with
            | leftRecursion inner =>
                rw [isClause] at plants
                have strictly := Finset.card_lt_card
                  (reaches.unseeded_ssubset here node.isLt plants.1 plants.2)
                omega
            | _ =>
                rw [isClause] at plants
                exact plants.elim
      · exact fartherOn _ (by omega) _ child childPath reaches.within rfl rfl

end Machine

/-! ## Built grammars -/

namespace Grammar

variable {grammar : Grammar L}

/-- Counts that advance do not wrap around. -/
theorem countsFit_of_plain {input : L.Input} (plain : grammar.Plain input)
    (words : grammar.CountsWords) : grammar.CountsFit input := by
  intro id name act found position state value count inside result
  by_contra beyond
  have back := Leaf.wordAdd_lt_of_wraps (words id name act found _ _ _ _ _ result)
    (Nat.le_of_not_lt beyond)
  have ahead := plain.consumes id name act found position state value count inside result
  omega

/-- A rule and the entry point of that name start at one node. -/
theorem ruleId?_of_entryPoint {type : ValueType L.Kind} {name : String}
    {entry : EntryPoint L type} (isEntry : grammar.entryPoint type name = .ok entry) :
    entry.grammar = grammar ∧ grammar.ruleId? name = some entry.root ∧
      exists rule, rule ∈ grammar.rules ∧ rule.root = entry.root := by
  rcases rule?_of_entryPoint isEntry with ⟨sameGrammar, rule, isRule, _, isRoot⟩
  refine ⟨sameGrammar, ?_, rule, List.mem_of_find?_eq_some isRule, isRoot⟩
  rw [ruleId?, isRule, Option.map_some, isRoot]

end Grammar

namespace GrammarBuilder

/-- If a grammar that was accepted is not reported for left recursion when it is
seen from a rule, every parse of that rule ends without a limit on nesting. -/
theorem build_ends_of_unreported {builder : GrammarBuilder L} {cache after : PatternCache}
    {built : BuiltGrammar L} (accepted : builder.build cache = (.ok built, after))
    {name : String} {type : ValueType L.Kind} {entry : EntryPoint L type}
    (isEntry : built.grammar.entryPoint type name = .ok entry) {known later : Nullability}
    (asked : built.grammar.Asked built.known known) {warnings : List GrammarWarning}
    (isReport : built.grammar.warnings name known = .ok (warnings, later))
    (unreported : forall warning, warning ∈ warnings -> warning.kind ≠ .unguardedLeftRecursion)
    (size : Nat) (input : L.Input) (state : L.State) (reads : built.grammar.ReadsWithin input)
    (words : built.grammar.CountsWords) (plain : built.grammar.Plain input) :
    exists steps run, run ≠ .exhausted ∧ forall more, steps ≤ more ->
      (entry.withConfig ⟨size, 0⟩).parseWithin more input state = run := by
  have ordered := build_ordered accepted
  rcases build_advances accepted with ⟨knows, advances⟩
  rcases Grammar.ruleId?_of_entryPoint isEntry with ⟨sameGrammar, isRoot, rule, member, rootRule⟩
  have isNode : entry.root < built.grammar.nodeCount := by
    rw [<- rootRule]
    exact ordered.roots rule member
  rw [Grammar.warnings, isRoot] at isReport
  have clean : forall warning, warning ∈ (built.grammar.analyze entry.root known).1 ->
      warning.kind ≠ .unguardedLeftRecursion := by
    rw [Except.ok.inj isReport]
    exact unreported
  have acyclic : forall {id}, built.grammar.Path Clause.children entry.root id ->
      ¬Relation.TransGen built.grammar.LeftEdge id id := by
    apply Grammar.no_leftCycle ordered
    intro rule member path
    exact Grammar.analyze_clean plain.noLookahead ordered.inRange isNode (asked.knows knows) clean
      member path (ordered.roots rule member)
  let unlimited := entry.withConfig ⟨size, 0⟩
  let machine := unlimited.machine input
  have isGrammar : machine.grammar = built.grammar := sameGrammar
  apply EntryPoint.ends_of_answers
  have same : machine = ⟨built.grammar, input, 0⟩ := by
    rw [<- isGrammar]
    rfl
  change machine.Answers 1 entry.root (Context.start state)
  rw [same]
  exact Machine.answers_of_wellFounded reads (Grammar.countsFit_of_plain plain words)
    (Grammar.nullable_covers plain reads ordered advances) rfl ordered.inRange
    (Grammar.leftBelow_wellFounded acyclic) _ _ ⟨entry.root, isNode⟩ .refl
    (Context.start_within _ state) rfl rfl

/-- The rule of sums starts with itself, but allows for it. -/
theorem sums_plain (input : String) : sumGrammar.Plain input where
  noLookahead := by
    intro id inner look negative found
    have member := List.mem_of_getElem? found
    simp [sumGrammar] at member
  noRecovery := by
    intro id inner transform found
    have member := List.mem_of_getElem? found
    have isSum : transform = writtenSum.transform := by
      simp [sumGrammar] at member
      exact member.2
    rw [isSum]
    rintro ⟨error, token, value, result⟩
    rw [FoldFunction.transform_error] at result
    cases result
  consumes := by
    intro id name act found
    have member := List.mem_of_getElem? found
    simp [sumGrammar] at member
  matchesEmpty := by
    intro id source program text found
    have member := List.mem_of_getElem? found
    simp [sumGrammar] at member

/-- Every sum is read in a number of steps. -/
theorem sums_end : exists steps run, run ≠ .exhausted ∧ forall more, steps ≤ more ->
    ((⟨sumGrammar, 7, ⟨0, 0⟩⟩ : EntryPoint plainText .text).parseWithin more "1+1+1" ()) = run := by
  let known : Nullability := ⟨[.unknown, .unknown, .known false, .unknown, .known false,
    .known false, .known false, .known false]⟩
  have accepted : sums.build PatternCache.empty = (.ok ⟨sumGrammar, known⟩, PatternCache.empty) :=
    rfl
  have isEntry : sumGrammar.entryPoint .text "sum" = .ok ⟨sumGrammar, 7, ParserConfig.unlimited⟩ :=
    rfl
  have isReport : sumGrammar.warnings "sum" known = .ok ([], known) := rfl
  refine build_ends_of_unreported accepted isEntry .refl isReport
    (List.forall_mem_nil _) 0 "1+1+1" () ?_ ?_ (sums_plain "1+1+1")
  · intro id atom found
    have member := List.mem_of_getElem? found
    simp [sumGrammar] at member
    rcases member with rfl | rfl
    · exact Leaf.exact_readsWithin (L := plainText) "1+1+1" "+"
    · exact Leaf.exact_readsWithin (L := plainText) "1+1+1" "1"
  · intro id name act found
    have member := List.mem_of_getElem? found
    simp [sumGrammar] at member

end GrammarBuilder
end SeedGrammar
