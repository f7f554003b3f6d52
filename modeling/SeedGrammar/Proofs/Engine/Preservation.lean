import SeedGrammar.Proofs.Engine.Direct
import SeedGrammar.Proofs.PlainText

namespace SeedGrammar

/-!
# Building preserves meaning

A rule of a built grammar parses as its expression runs, up to the numbers of
nodes.  The node of an expression has the operands' nodes for operands, so both
runs make the same calls.  Seeds are kept under keys on one side and under nodes
on the other; each names every operator once.

Two things are not in step.  A reference has no node of its own, so a run of
expressions takes more steps.  And whether a repetition has to go back to an
earlier state is decided by a search of the nodes on one side, by following
operands and references on the other; the first finds what the second says.
-/

variable {L : Signature}

theorem Clause.successors_of_operator {ρ α : Type} {clause : Clause L ρ α}
    (isOperator : clause.isReference = false) : clause.successors = clause.children := by
  cases clause with
  | reference name expected target => cases isOperator
  | _ => rfl

theorem Clause.eq_update_of_isUpdate {ρ α : Type} {clause : Clause L ρ α}
    (isUpdate : clause.isUpdate = true) : exists inner next, clause = .update inner next := by
  cases clause with
  | update inner next => exact ⟨inner, next, rfl⟩
  | _ => cases isUpdate

theorem Clause.Corresponds.isUpdate_eq {ρ σ α β : Type} {leaves : Leaf L ρ -> Leaf L σ -> Prop}
    {operands : α -> β -> Prop} {clause : Clause L ρ α} {other : Clause L σ β}
    (corresponds : clause.Corresponds leaves operands other) : clause.isUpdate = other.isUpdate := by
  cases corresponds <;> rfl

namespace GrammarBuilder

/-- Whether an expression in the rules is one that keeps a node of its own. -/
def Operator (builder : GrammarBuilder L) (expr : Expr L) : Prop :=
  builder.Contains expr ∧ expr.clause.isReference = false

namespace Resolution

variable {builder : GrammarBuilder L} {grammar : Grammar L} {node : Expr L -> NodeId}
  {longest : Nat}

/-- The node of an operator has the nodes of the operands for its operands, and
replaces the state if the operator does. -/
theorem shape (resolution : builder.Resolution grammar node longest) {expr : Expr L}
    (operator : builder.Operator expr) :
    exists clause, grammar.nodes[node expr]? = some clause ∧
      clause.successors = expr.clause.children.map node ∧
      (clause.isUpdate = true ↔ expr.clause.isUpdate = true) := by
  rcases resolution.clause expr operator.1 operator.2 with
    ⟨compiled, clause, isCompiled, found, corresponds⟩
  refine ⟨clause, found, ?_, ?_⟩
  · have isOperator : clause.isReference = false := by
      rw [<- corresponds.isReference_eq, Clause.isReference_compiled isCompiled, operator.2]
    have operands := corresponds.children
    rw [Clause.children_compiled isCompiled, <- List.forall₂_map_left_iff,
      List.forall₂_eq_eq_eq] at operands
    rw [Clause.successors_of_operator isOperator, operands]
  · rw [<- corresponds.isUpdate_eq, (Clause.corresponds_compiled isCompiled).isUpdate_eq]

/-- What the search for a replaced state finds from the node of an expression
is what following its operands and references finds. -/
theorem writes_iff (resolution : builder.Resolution grammar node longest) {expr : Expr L}
    (contained : builder.Contains expr) :
    builder.Writes expr ↔ grammar.writesState (node expr) = true := by
  have inRange : forall expr, builder.Operator expr -> node expr < grammar.nodeCount := by
    intro expr operator
    rcases resolution.shape operator with ⟨_, found, _⟩
    exact (List.getElem?_eq_some_iff.mp found).1
  rcases resolution.leads expr contained with ⟨length, last, _, leads⟩
  have lastOperator : builder.Operator last := ⟨leads.contains contained, leads.operator⟩
  rw [resolution.node_leads leads contained,
    Grammar.writesState_iff (inRange last lastOperator),
    <- resolution.node_leads leads contained]
  constructor
  · intro writes
    clear leads lastOperator
    induction writes with
    | @update expr inner next isUpdate =>
        have operator : builder.Operator expr := ⟨contained, by rw [isUpdate]; rfl⟩
        rcases resolution.shape operator with ⟨clause, found, _, updates⟩
        exact ⟨node expr, clause, .refl, found, updates.mpr (by rw [isUpdate]; rfl)⟩
    | @operand expr child isChild _ inductionHypothesis =>
        have operator : builder.Operator expr := by
          refine ⟨contained, ?_⟩
          cases isReference : expr.clause.isReference with
          | false => rfl
          | true =>
              rcases Clause.eq_reference_of_isReference isReference with ⟨_, _, _, isClause⟩
              rw [isClause] at isChild
              cases isChild
        rcases resolution.shape operator with ⟨clause, found, successors, _⟩
        rcases inductionHypothesis (builder.contains_operandClosed expr child contained isChild)
          with ⟨other, update, path, isUpdate⟩
        have edge : grammar.Edge Clause.successors (node expr) (node child) :=
          ⟨clause, found, successors ▸ List.mem_map_of_mem isChild⟩
        exact ⟨other, update, .head edge path, isUpdate⟩
    | @reference expr name expected target definition isReference isDefinition _
        inductionHypothesis =>
        rcases resolution.reference expr name expected target contained isReference with
          ⟨definition', isDefinition', _, sameNode⟩
        rw [isDefinition] at isDefinition'
        cases isDefinition'
        rw [sameNode]
        exact inductionHypothesis (contains_root (mem_of_definition? isDefinition))
  · rintro ⟨other, update, path, found, isUpdate⟩
    -- Along the path each node is that of an expression, which leads to an operator.
    clear leads lastOperator
    generalize isNode : node expr = id at path
    induction path using Relation.ReflTransGen.head_induction_on generalizing expr with
    | refl =>
        rcases resolution.leads expr contained with ⟨length, last, _, leads⟩
        have operator : builder.Operator last := ⟨leads.contains contained, leads.operator⟩
        rcases resolution.shape operator with ⟨clause, isClause, _, updates⟩
        rw [<- resolution.node_leads leads contained, isNode, found] at isClause
        cases isClause
        rcases Clause.eq_update_of_isUpdate (updates.mp isUpdate) with ⟨inner, next, isWritten⟩
        exact leads.writes (.update isWritten)
    | @head id child edge _ inductionHypothesis =>
        rcases resolution.leads expr contained with ⟨length, last, _, leads⟩
        have operator : builder.Operator last := ⟨leads.contains contained, leads.operator⟩
        rcases resolution.shape operator with ⟨clause, isClause, successors, _⟩
        rcases edge with ⟨clause', isClause', isSuccessor⟩
        rw [<- resolution.node_leads leads contained, isNode, isClause'] at isClause
        cases isClause
        rw [successors] at isSuccessor
        rcases List.mem_map.mp isSuccessor with ⟨operand, isOperand, operandNode⟩
        have operandContained := builder.contains_operandClosed last operand operator.1 isOperand
        exact leads.writes (.operand isOperand (inductionHypothesis operandContained operandNode))

/-! ## Runs of expressions and of nodes -/

theorem key_injective (coherent : Coherent builder.Contains) (first second : Expr L)
    (isFirst : builder.Operator first) (isSecond : builder.Operator second)
    (sameKey : first.key = second.key) : first = second :=
  coherent first second isFirst.1 isSecond.1 sameKey

theorem node_injective (resolution : builder.Resolution grammar node longest)
    (first second : Expr L) (isFirst : builder.Operator first)
    (isSecond : builder.Operator second) (sameNode : node first = node second) :
    first = second :=
  resolution.injective first second isFirst.1 isSecond.1 isFirst.2 isSecond.2 sameNode

open Classical in
theorem writes_eq (resolution : builder.Resolution grammar node longest) {expr : Expr L}
    (contained : builder.Contains expr) :
    decide (builder.Writes expr) = grammar.writesState (node expr) := by
  rw [Bool.eq_iff_iff, decide_eq_true_iff]
  exact resolution.writes_iff contained

/-- A run of an expression is followed by that of its node with as many steps. -/
theorem interpret_follows (resolution : builder.Resolution grammar node longest)
    (coherent : Coherent builder.Contains) (blind : builder.NodeBlind) (input : L.Input)
    {steps more depth : Nat} (enough : steps ≤ more) {expr : Expr L}
    (contained : builder.Contains expr) {first second : Context L}
    (same : (Agreement.renamed Expr.key node builder.Operator).contexts first second) :
    (builder.interpret input steps expr first).Follows
      (Agreement.renamed Expr.key node builder.Operator)
      ((grammar.machine input).run more depth (node expr) second) := by
  induction steps generalizing more depth expr first second with
  | zero => exact .exhausted
  | succ steps inductionHypothesis =>
      cases isReference : expr.clause.isReference with
      | true =>
          rcases Clause.eq_reference_of_isReference isReference with
            ⟨name, expected, target, isClause⟩
          rcases resolution.reference expr name expected target contained isClause with
            ⟨definition, isDefinition, _, sameNode⟩
          rw [interpret_reference isClause isDefinition, sameNode]
          exact inductionHypothesis (Nat.le_of_succ_le enough)
            (contains_root (mem_of_definition? isDefinition)) same
      | false =>
          rcases resolution.clause expr contained isReference with
            ⟨compiled, clause, isCompiled, found, corresponds⟩
          rcases Nat.exists_eq_add_one_of_ne_zero (Nat.ne_zero_of_lt enough) with ⟨more, rfl⟩
          have runs : (grammar.machine input).run (more + 1) depth (node expr) second = _ :=
            Machine.run_clause rfl found more depth second
          rw [interpret_operator isReference isCompiled, runs]
          have callers : (Agreement.renamed Expr.key node builder.Operator).Callers
              (fun child id => builder.Contains child ∧ node child = id)
              (builder.interpret input steps)
              ((grammar.machine input).run more 1) := by
            rintro child _ ⟨childContained, rfl⟩ before before' agree
            exact inductionHypothesis (Nat.le_of_succ_le_succ enough) childContained agree
          have bears : (Agreement.renamed Expr.key node builder.Operator).Bears expr.key
              (node expr) compiled := by
            apply Agreement.renamed_bears (key_injective coherent) resolution.node_injective
              (show builder.Operator expr from ⟨contained, isReference⟩)
            exact (Clause.corresponds_compiled isCompiled).nodeBlind (blind.clause contained)
          refine Agreement.clause_follows callers trivial (Nat.le_of_succ_le_succ enough) input
            ?_ ?_ bears same
          · rintro child _ ⟨childContained, rfl⟩
            exact resolution.writes_eq childContained
          · apply corresponds.imp
            intro child id isChild isNode
            rw [Clause.children_compiled isCompiled] at isChild
            exact ⟨builder.contains_operandClosed expr child contained isChild, isNode⟩

/-- A run of a node is followed by that of an expression with so many more steps
that references can be followed to their end each time. -/
theorem run_follows_interpret (resolution : builder.Resolution grammar node longest)
    (coherent : Coherent builder.Contains) (blind : builder.NodeBlind) (input : L.Input)
    {steps more depth : Nat} (enough : steps * (longest + 1) ≤ more) {expr : Expr L}
    (contained : builder.Contains expr) {first second : Context L}
    (same : (Agreement.renamed node Expr.key builder.Operator).contexts first second) :
    ((grammar.machine input).run steps depth (node expr) first).Follows
      (Agreement.renamed node Expr.key builder.Operator)
      (builder.interpret input more expr second) := by
  induction steps generalizing more depth expr first second with
  | zero => exact .exhausted
  | succ steps inductionHypothesis =>
      rcases resolution.leads expr contained with ⟨length, last, short, leads⟩
      have operator : builder.Operator last := ⟨leads.contains contained, leads.operator⟩
      rw [Nat.succ_mul] at enough
      have split : exists fewer, more = fewer + 1 + length ∧ steps * (longest + 1) ≤ fewer :=
        ⟨more - 1 - length, by omega, by omega⟩
      rcases split with ⟨fewer, rfl, left⟩
      have leftSteps : steps ≤ fewer := Nat.le_trans (Nat.le_mul_of_pos_right _ (by omega)) left
      rcases resolution.clause last operator.1 operator.2 with
        ⟨compiled, clause, isCompiled, found, corresponds⟩
      have runs : (grammar.machine input).run (steps + 1) depth (node last) first = _ :=
        Machine.run_clause rfl found steps depth first
      rw [interpret_leads leads, resolution.node_leads leads contained,
        interpret_operator operator.2 isCompiled, runs]
      have callers : (Agreement.renamed node Expr.key builder.Operator).Callers
          (fun id child => builder.Contains child ∧ node child = id)
          ((grammar.machine input).run steps 1)
          (builder.interpret input fewer) := by
        rintro _ child ⟨childContained, rfl⟩ before before' agree
        exact inductionHypothesis left childContained agree
      have related : compiled.Corresponds Eq
          (fun child id => builder.Contains child ∧ node child = id) clause := by
        apply corresponds.imp
        intro child id isChild isNode
        rw [Clause.children_compiled isCompiled] at isChild
        exact ⟨builder.contains_operandClosed last child operator.1 isChild, isNode⟩
      have bears : (Agreement.renamed node Expr.key builder.Operator).Bears (node last)
          last.key clause := by
        apply Agreement.renamed_bears resolution.node_injective (key_injective coherent) operator
        have compiledBlind := (Clause.corresponds_compiled isCompiled).nodeBlind
          (blind.clause operator.1)
        exact corresponds.nodeBlind compiledBlind
      refine Agreement.clause_follows callers trivial leftSteps input ?_ related.flip bears same
      rintro _ child ⟨childContained, rfl⟩
      exact (resolution.writes_eq childContained).symm

end Resolution
end GrammarBuilder

/-! ## Parsing -/

/-- The same outcome of a parse up to the numbers of nodes.  A parse that is
out of steps is like no other. -/
inductive ParseRun.Alike {type : ValueType L.Kind} : ParseRun L type -> ParseRun L type -> Prop where
  | completed {result result' : ParseResult L type} :
      AnswersAlike (fun _ _ => True) result.result result'.result ->
      result.consumed = result'.consumed -> result.state = result'.state ->
      Alike (.completed result) (.completed result')
  | faulted {fault fault'} : fault.Alike (fun _ _ => True) fault' ->
      Alike (.faulted fault) (.faulted fault')

theorem ParseRun.Alike.eq_of_ok {type : ValueType L.Kind} {content : type.Carrier L}
    {consumed : Nat} {state : L.State} {other : ParseRun L type}
    (alike : (ParseRun.completed ⟨.ok content, consumed, state⟩).Alike other) :
    other = .completed ⟨.ok content, consumed, state⟩ := by
  cases alike with
  | @completed _ result' answers sameConsumed sameState =>
      rcases result' with ⟨answer, consumed', state'⟩
      have sameConsumed : consumed = consumed' := sameConsumed
      subst sameConsumed
      have sameState : state = state' := sameState
      subst sameState
      cases answers with
      | ok _ => rfl

/-- Roots that follow each other make for parses that are alike. -/
theorem EntryPoint.conclude_alike {type : ValueType L.Kind} {left right : Expr L -> NodeId}
    {among : Expr L -> Prop} {reply other : Reply L (Outcome L)}
    (follows : reply.Follows (Agreement.renamed left right among) other) (root root' : NodeId)
    (ends : (conclude root reply : ParseRun L type) ≠ .exhausted) :
    (conclude root reply : ParseRun L type).Alike (conclude root' other) := by
  cases follows with
  | finished alike same =>
      cases alike with
      | ok value =>
          rw [conclude, conclude]
          cases value.get? type with
          | some content => exact .completed (.ok content) same.1 same.2.1
          | none => exact .faulted (.wrongType trivial)
      | error alike => exact .completed (.error alike) same.1 same.2.1
  | halted alike same => exact .completed (.error alike) same.1 same.2.1
  | faulted alike => exact .faulted alike
  | exhausted => exact absurd rfl ends

namespace GrammarBuilder

/-- A rule of a built grammar parses as its expression runs: one comes to an
outcome if the other does, and then to the same up to the numbers of nodes. -/
theorem build_preserves_meaning {builder : GrammarBuilder L} {cache after : PatternCache}
    {built : BuiltGrammar L} (sound : cache.Sound) (coherent : Coherent builder.Contains)
    (blind : builder.NodeBlind) (accepted : builder.build cache = (.ok built, after))
    {definition : Definition L} (member : definition ∈ builder.definitions) :
    exists entry, built.grammar.entryPoint definition.type definition.name = .ok entry ∧
      forall input state,
        (forall steps, entry.parseWithin steps input state ≠ .exhausted ->
          exists enough, forall more, enough ≤ more ->
            (entry.parseWithin steps input state).Alike
              (builder.interpretRule definition more input state)) ∧
        (forall steps, builder.interpretRule definition steps input state ≠ .exhausted ->
          forall more, steps ≤ more ->
            (builder.interpretRule definition steps input state).Alike
              (entry.parseWithin more input state)) := by
  rcases build_resolves sound coherent accepted with ⟨node, longest, resolution⟩
  have contained : builder.Contains definition.parser.expr := contains_root member
  refine ⟨⟨built.grammar, node definition.parser.expr, ParserConfig.unlimited⟩, ?_, ?_⟩
  · rw [Grammar.entryPoint, resolution.rule definition member]
    exact if_pos rfl
  · intro input state
    have accepts : ¬EntryPoint.Refuses
        (⟨built.grammar, node definition.parser.expr, ParserConfig.unlimited⟩ :
          EntryPoint L definition.type) input := by
      intro refuses
      exact absurd refuses.1 (Nat.lt_irrefl 0)
    simp only [EntryPoint.parseWithin_of_accepts accepts]
    constructor
    · intro steps ends
      refine ⟨steps * (longest + 1), ?_⟩
      intro more enough
      exact EntryPoint.conclude_alike
        (resolution.run_follows_interpret coherent blind input enough contained
          (Agreement.renamed_start node Expr.key builder.Operator state)) _ _ ends
    · intro steps ends more enough
      exact EntryPoint.conclude_alike
        (resolution.interpret_follows coherent blind input enough contained
          (Agreement.renamed_start Expr.key node builder.Operator state)) _ _ ends

/-! ## A list that starts with itself under another name -/

/-- A list of letters that may start with what `again` names, and another name
for the list.  The letter is used twice. -/
def aliasedParsers : Construction (Parser plainText .text × Parser plainText .text) := do
  let letter ← Parser.exact "a"
  let again ← Parser.reference "again" .text
  let longer ← again.thenLeft letter
  let either ← longer.orElse letter
  let list ← either.leftRecursive
  let other ← Parser.reference "list" .text
  return (list, other)

/-- The rule of the list. -/
def aliasedList : Definition plainText := ⟨"list", .text, (aliasedParsers 0).1.1⟩

/-- The list and its other name, by which it refers to itself. -/
def aliased : GrammarBuilder plainText :=
  ⟨[aliasedList, ⟨"again", .text, (aliasedParsers 0).1.2⟩]⟩

theorem aliased_coherent : Coherent aliased.Contains := by
  let letter : Expr plainText := .node 0 (.leaf (.exact "a"))
  let again : Expr plainText := .node 1 (.reference "again" .text none)
  let longer : Expr plainText := .node 2 (.sequence [again, letter] (.pick 0))
  let either : Expr plainText := .node 3 (.choice [longer, letter])
  have keys : KeysBelow 1 [letter] := (KeysBelow.none 0).over _ (List.nil_subset _)
  have keys : KeysBelow 2 [again, letter] := keys.over _ (List.nil_subset _)
  have keys : KeysBelow 3 [longer, again, letter] := keys.over _ (List.Subset.refl _)
  have keys : KeysBelow 4 [either, longer, again, letter] := by
    apply keys.over
    simp [Clause.children]
  have keys : KeysBelow 5 [.node 4 (.leftRecursion either), either, longer, again, letter] := by
    apply keys.over
    simp [Clause.children]
  apply (keys.over (.reference "list" .text none) (List.nil_subset _)).contains_coherent
  intro definition member
  rcases List.mem_cons.mp member with isList | member
  · rw [isList]
    exact List.mem_cons_of_mem _ (List.mem_cons_self ..)
  · rw [List.mem_singleton.mp member]
    exact List.mem_cons_self ..

theorem aliased_nodeBlind : aliased.NodeBlind := by
  have letter : (Expr.node 0 (.leaf (.exact "a")) : Expr plainText).NodeBlind :=
    Expr.nodeBlind_node trivial (List.forall_mem_nil _)
  have again : (Expr.node 1 (.reference "again" .text none) : Expr plainText).NodeBlind :=
    Expr.nodeBlind_node trivial (List.forall_mem_nil _)
  have longer : (Expr.node 2 (.sequence [.node 1 _, .node 0 _] (.pick 0))).NodeBlind :=
    Expr.nodeBlind_node trivial
      (List.forall_mem_cons.mpr ⟨again, List.forall_mem_singleton.mpr letter⟩)
  have either : (Expr.node 3 (.choice [.node 2 _, .node 0 _])).NodeBlind :=
    Expr.nodeBlind_node trivial
      (List.forall_mem_cons.mpr ⟨longer, List.forall_mem_singleton.mpr letter⟩)
  intro definition member
  rcases List.mem_cons.mp member with isList | member
  · rw [isList]
    exact Expr.nodeBlind_node trivial (List.forall_mem_singleton.mpr either)
  · rw [List.mem_singleton.mp member]
    exact Expr.nodeBlind_node trivial (List.forall_mem_nil _)

/-- What aliases and sharing leave of the two rules. -/
def aliasedGrammar : Grammar plainText :=
  ⟨[.reference "again" .text (some 5), .leaf (.exact "a"), .sequence [4, 1] (.pick 0),
      .choice [2, 1], .leftRecursion 3, .reference "list" .text (some 4)],
    [⟨"list", .text, 4⟩, ⟨"again", .text, 4⟩]⟩

theorem aliased_accepted : exists known,
    aliased.build PatternCache.empty = (.ok ⟨aliasedGrammar, known⟩, PatternCache.empty) :=
  ⟨_, rfl⟩

/-- What the list comes to when its expression is run directly follows from
what the built grammar computes. -/
theorem aliased_meaning : exists enough, forall more, enough ≤ more ->
    aliased.interpretRule aliasedList more "aaab" () = .completed ⟨.ok "a", 3, ()⟩ := by
  rcases aliased_accepted with ⟨known, accepted⟩
  rcases build_preserves_meaning PatternCache.empty_sound aliased_coherent aliased_nodeBlind
    accepted (List.mem_cons_self : aliasedList ∈ aliased.definitions) with ⟨entry, isEntry, meaning⟩
  have sameEntry : ⟨aliasedGrammar, 4, ParserConfig.unlimited⟩ = entry := Except.ok.inj isEntry
  subst sameEntry
  have parses : (⟨aliasedGrammar, 4, ParserConfig.unlimited⟩ :
      EntryPoint plainText aliasedList.type).parseWithin 12 "aaab" () =
        .completed ⟨.ok "a", 3, ()⟩ := rfl
  rcases (meaning "aaab" ()).1 12 (EntryPoint.completed_ne_exhausted parses) with
    ⟨enough, alike⟩
  refine ⟨enough, ?_⟩
  intro more isMore
  exact (parses ▸ alike more isMore).eq_of_ok

end GrammarBuilder
end SeedGrammar
