import Mathlib.Logic.Relation
import SeedGrammar.Proofs.Grammar.Resolution
import SeedGrammar.Proofs.PlainText

namespace SeedGrammar

/-!
# Chains and cycles of references

A rule whose expression is a reference is another name for the rule that is referred to.
Such a rule has no end of its own if the names come back to where they started, and then the
grammar is refused.  All other references have an end, and they are replaced by it.

The search for ends follows the references of nodes.  It fails only at a reference that it
has passed before, and from this reference there is a way back to it; so there is a cycle of
names as well, on which the reported name lies.  Conversely, if the search fails nowhere then
every expression leads to an operator, in a number of steps that depends on nothing but the
expression.  An expression on a cycle would have two such numbers.
-/

variable {L : Signature}

namespace Grammar

variable {nodes : List (Clause L PatternProgram NodeId)}

/-- Whether a node is a reference to another one. -/
def RefersTo (nodes : List (Clause L PatternProgram NodeId)) (id target : NodeId) : Prop :=
  exists name expected, nodes[id]? = some (.reference name expected (some target))

/-- Whether a reference with a name leads back to itself. -/
def ComesBack (nodes : List (Clause L PatternProgram NodeId)) (name : String) : Prop :=
  exists place target expected, nodes[place]? = some (.reference name expected (some target)) ∧
    Relation.TransGen (RefersTo nodes) place place

/-- Whether all references have a target. -/
def FullyBound (nodes : List (Clause L PatternProgram NodeId)) : Prop :=
  forall (id : NodeId) name expected, nodes[id]? ≠ some (.reference name expected none)

/-- Binding leaves no reference without a target. -/
theorem bindAll_fullyBound {rules : List (Rule L)} {bound : List (Clause L PatternProgram NodeId)}
    (isBound : bindAll rules nodes = .ok bound) : FullyBound bound := by
  intro id name expected found
  have areBound := bindAll_ok isBound
  rcases List.getElem?_eq_some_iff.mp found with ⟨inRange, isReference⟩
  have isBound := areBound.get (areBound.length_eq ▸ inRange) inRange
  rw [List.get_eq_getElem, List.get_eq_getElem, isReference] at isBound
  rcases bind_ok isBound with ⟨noReference, same⟩ | ⟨_, _, _, _, _, _, _, same⟩
  · rw [<- same] at noReference
    cases noReference
  · cases same

/-- A chain has no end only if it comes back to a reference that it has passed. -/
theorem chainEnd_error (fullyBound : FullyBound nodes) {known : List (Option NodeId)} {fuel : Nat}
    {passed : List NodeId} {id : NodeId} {error : GrammarError}
    (isPath : forall place, place ∈ passed -> Relation.TransGen (RefersTo nodes) place id)
    (fails : chainEnd nodes known fuel passed id = .error error) :
    exists name, error = .cyclicReference name ∧ ComesBack nodes name := by
  induction fuel generalizing passed id with
  | zero => cases fails
  | succ fuel inductionHypothesis =>
      cases isKnown : (known[id]?).join with
      | some done =>
          rw [chainEnd, isKnown] at fails
          cases fails
      | none =>
          by_cases ends : EndsChain nodes id
          · rw [chainEnd_of_endsChain isKnown ends] at fails
            cases fails
          · rcases exists_reference_of_not_endsChain ends with ⟨name, expected, target, found⟩
            cases target with
            | none => exact absurd found (fullyBound id name expected)
            | some target =>
                simp only [chainEnd, isKnown, found] at fails
                by_cases again : id ∈ passed
                · rw [if_pos again] at fails
                  cases fails
                  exact ⟨name, rfl, id, target, expected, found, isPath id again⟩
                · rw [if_neg again] at fails
                  have step : RefersTo nodes id target := ⟨name, expected, found⟩
                  refine inductionHypothesis ?_ fails
                  intro place member
                  rcases List.mem_cons.mp member with rfl | older
                  · exact .single step
                  · exact (isPath place older).tail step

theorem chainEnds_error (fullyBound : FullyBound nodes) {starts : List NodeId}
    {known : List (Option NodeId)} {error : GrammarError}
    (fails : chainEnds nodes starts known = .error error) :
    exists name, error = .cyclicReference name ∧ ComesBack nodes name := by
  induction starts generalizing known with
  | nil => cases fails
  | cons start rest inductionHypothesis =>
      rw [chainEnds] at fails
      cases isKnown : (known[start]?).join with
      | some done =>
          simp only [isKnown] at fails
          exact inductionHypothesis fails
      | none =>
          simp only [isKnown] at fails
          cases isEnd : chainEnd nodes known (nodes.length + 1) [] start with
          | error other =>
              simp only [isEnd] at fails
              cases fails
              exact chainEnd_error fullyBound (fun _ none => absurd none List.not_mem_nil) isEnd
          | ok walk =>
              simp only [isEnd] at fails
              exact inductionHypothesis fails

/-- The search for ends fails only for a reference that leads back to itself. -/
theorem targets_error (fullyBound : FullyBound nodes) {error : GrammarError}
    (fails : targets nodes = .error error) :
    exists name, error = .cyclicReference name ∧ ComesBack nodes name := by
  rw [targets] at fails
  cases areEnds : chainEnds nodes (List.range nodes.length) (List.replicate nodes.length none) with
  | error other =>
      rw [areEnds] at fails
      cases fails
      exact chainEnds_error fullyBound areEnds
  | ok known =>
      rw [areEnds] at fails
      cases fails

theorem bindAll_of_forall {rules : List (Rule L)}
    (binds : forall clause, clause ∈ nodes -> exists bound, bind rules clause = .ok bound) :
    exists bound, bindAll rules nodes = .ok bound := by
  induction nodes with
  | nil => exact ⟨[], rfl⟩
  | cons clause rest inductionHypothesis =>
      rcases binds clause (List.mem_cons_self ..) with ⟨first, isFirst⟩
      rcases inductionHypothesis fun other member => binds other (List.mem_cons_of_mem _ member) with
        ⟨others, areOthers⟩
      refine ⟨first :: others, ?_⟩
      rw [bindAll, isFirst, areOthers]
      rfl

/-- To check the clauses that loop finds no fault with references. -/
theorem validate_ne_cyclicReference (grammar : Grammar L)
    (clauses : List (Clause L PatternProgram NodeId)) (known : Nullability) (name : String) :
    grammar.validate clauses known ≠ .error (.cyclicReference name) := by
  fun_induction validate grammar clauses known <;> simp_all

end Grammar

namespace GrammarBuilder

variable {builder : GrammarBuilder L}

/-- Whether the expression of one rule is a reference to another rule. -/
def Renames (builder : GrammarBuilder L) (name other : String) : Prop :=
  exists definition expected target, builder.definition? name = some definition ∧
    definition.parser.expr.clause = .reference other expected target

/-- Whether all references are to rules that produce what is expected of them. -/
def RefersWell (builder : GrammarBuilder L) : Prop :=
  forall expr name expected target, builder.Contains expr ->
    expr.clause = .reference name expected target ->
      exists definition, builder.definition? name = some definition ∧ definition.type = expected

theorem Leads.unique {expr last last' : Expr L} {length length' : Nat}
    (leads : builder.Leads length expr last) (leads' : builder.Leads length' expr last') :
    length = length' ∧ last = last' := by
  induction leads generalizing length' with
  | here isOperator =>
      cases leads' with
      | here _ => exact ⟨rfl, rfl⟩
      | follow isReference _ _ =>
          rw [isReference] at isOperator
          cases isOperator
  | follow isReference found _ inductionHypothesis =>
      cases leads' with
      | here isOperator =>
          rw [isReference] at isOperator
          cases isOperator
      | follow isReference' found' rest =>
          rw [isReference] at isReference'
          cases isReference'
          rw [found] at found'
          cases found'
          rcases inductionHypothesis rest with ⟨rfl, rfl⟩
          exact ⟨rfl, rfl⟩

/-- A rule that is renamed leads where its new name leads, in more steps. -/
theorem Leads.of_renames {name other : String}
    (renames : Relation.TransGen builder.Renames name other) {definition : Definition L}
    (found : builder.definition? other = some definition) {length : Nat} {last : Expr L}
    (leads : builder.Leads length definition.parser.expr last) :
    exists first longer, builder.definition? name = some first ∧ length < longer ∧
      builder.Leads longer first.parser.expr last := by
  induction renames using Relation.TransGen.head_induction_on with
  | single step =>
      rcases step with ⟨first, expected, target, isFirst, isReference⟩
      exact ⟨first, length + 1, isFirst, Nat.lt_succ_self _, .follow isReference found leads⟩
  | head step _ inductionHypothesis =>
      rcases step with ⟨first, expected, target, isFirst, isReference⟩
      rcases inductionHypothesis with ⟨second, longer, isSecond, more, leads⟩
      exact ⟨first, longer + 1, isFirst, Nat.lt_succ_of_lt more, .follow isReference isSecond leads⟩

/-- Where every expression leads to an operator, no rule is renamed to itself. -/
theorem Resolution.acyclic {grammar : Grammar L} {node : Expr L -> NodeId} {longest : Nat}
    (resolution : builder.Resolution grammar node longest) (name : String) :
    ¬Relation.TransGen builder.Renames name name := by
  intro isCycle
  rcases Relation.TransGen.head'_iff.mp isCycle with ⟨_, ⟨definition, _, _, found, _⟩, _⟩
  rcases resolution.leads definition.parser.expr (contains_root (mem_of_definition? found)) with
    ⟨length, last, _, leads⟩
  rcases Leads.of_renames isCycle found leads with ⟨again, longer, found', more, leads'⟩
  cases found.symm.trans found'
  exact absurd (leads.unique leads').1 (Nat.ne_of_lt more)

/-- An expression leads to one operator, and has its node. -/
theorem Resolution.end_unique {grammar : Grammar L} {node : Expr L -> NodeId} {longest : Nat}
    (resolution : builder.Resolution grammar node longest) {expr : Expr L}
    (contained : builder.Contains expr) :
    exists last clause, (exists length, builder.Leads length expr last) ∧
      (forall other, (exists length, builder.Leads length expr other) -> other = last) ∧
      node expr = node last ∧ grammar.nodes[node last]? = some clause ∧
      clause.isReference = false := by
  rcases resolution.leads expr contained with ⟨length, last, _, leads⟩
  rcases resolution.clause last (leads.contains contained) leads.operator with
    ⟨compiled, clause, isCompiled, found, corresponds⟩
  refine ⟨last, clause, ⟨length, leads⟩, ?_, resolution.node_leads leads contained, found, ?_⟩
  · rintro other ⟨length', leads'⟩
    exact (leads'.unique leads).2
  · rw [<- corresponds.isReference_eq, Clause.isReference_compiled isCompiled, leads.operator]

/-! ## Cycles of nodes and of names -/

section Lowered

variable {state : LoweringState L} {rules : List (Rule L)}
  {bound : List (Clause L PatternProgram NodeId)}

/-- A node that is bound as a reference is that of an expression that is one, and its target
is the root of the rule that is named. -/
theorem LoweredRules.reference_of_bound (lowered : builder.LoweredRules state rules)
    (coherent : Coherent builder.Contains) (isBound : Grammar.bindAll rules state.nodes = .ok bound)
    {id : NodeId} {name : String} {expected : ValueType L.Kind} {target : Option NodeId}
    (found : bound[id]? = some (.reference name expected target)) :
    exists expr reference definition root, builder.Contains expr ∧ state.Places expr id ∧
      expr.clause = .reference name expected reference ∧
      builder.definition? name = some definition ∧
      state.Places definition.parser.expr root ∧ target = some root := by
  have inRange : id < state.nodes.length := by
    rw [(Grammar.bindAll_ok isBound).length_eq]
    exact (List.getElem?_eq_some_iff.mp found).1
  rcases lowered.represents.filled id inRange with ⟨expr, contained, places⟩
  rcases lowered.bound_of_places coherent isBound contained places with
    ⟨compiled, clause, clause', isCompiled, corresponds, clauseBound, found'⟩
  cases found.symm.trans found'
  have isReference : expr.clause.isReference = true := by
    rw [<- Clause.isReference_compiled isCompiled, corresponds.isReference_eq]
    rcases Grammar.bind_ok clauseBound with ⟨noReference, rfl⟩ | ⟨_, _, _, _, rfl, _⟩
    · cases noReference
    · rfl
  rcases Clause.eq_reference_of_isReference isReference with ⟨name', expected', reference, isClause⟩
  rcases lowered.bound_reference coherent isBound contained isClause places with
    ⟨definition, root, isDefinition, _, rootPlaces, found'⟩
  cases found.symm.trans found'
  exact ⟨expr, reference, definition, root, contained, places, isClause, isDefinition, rootPlaces,
    rfl⟩

/-- Whether a node is the root of the rule with a name. -/
def RootOf (builder : GrammarBuilder L) (state : LoweringState L) (name : String) (id : NodeId) :
    Prop :=
  exists definition, builder.definition? name = some definition ∧
    state.Places definition.parser.expr id

/-- From the root of one rule, a reference leads to the root of the rule that it is renamed
to. -/
theorem LoweredRules.renames_of_bound (lowered : builder.LoweredRules state rules)
    (coherent : Coherent builder.Contains) (isBound : Grammar.bindAll rules state.nodes = .ok bound)
    {name other : String} {id : NodeId} (isRoot : builder.RootOf state name id)
    {expected : ValueType L.Kind} {target : NodeId}
    (found : bound[id]? = some (.reference other expected (some target))) :
    builder.Renames name other ∧ builder.RootOf state other target := by
  rcases lowered.reference_of_bound coherent isBound found with
    ⟨expr, reference, definition, root, contained, places, isClause, isDefinition, rootPlaces, isTarget⟩
  cases isTarget
  rcases isRoot with ⟨first, isFirst, firstPlaces⟩
  have same : first.parser.expr = expr :=
    coherent _ _ (contains_root (mem_of_definition? isFirst)) contained
      (lowered.represents.distinct _ _ id firstPlaces places)
  refine ⟨⟨first, expected, reference, isFirst, ?_⟩, definition, isDefinition, rootPlaces⟩
  rw [same, isClause]

/-- References of nodes from the root of a rule follow the names. -/
theorem LoweredRules.renames_of_path (lowered : builder.LoweredRules state rules)
    (coherent : Coherent builder.Contains) (isBound : Grammar.bindAll rules state.nodes = .ok bound)
    {name : String} {id last : NodeId} (isRoot : builder.RootOf state name id)
    (path : Relation.ReflTransGen (Grammar.RefersTo bound) id last) :
    exists other, Relation.ReflTransGen builder.Renames name other ∧
      builder.RootOf state other last := by
  induction path with
  | refl => exact ⟨name, .refl, isRoot⟩
  | tail _ step inductionHypothesis =>
      rcases inductionHypothesis with ⟨middle, path, middleRoot⟩
      rcases step with ⟨other, expected, found⟩
      rcases lowered.renames_of_bound coherent isBound middleRoot found with ⟨renames, otherRoot⟩
      exact ⟨other, path.tail renames, otherRoot⟩

/-- A reference that leads back to itself names a rule on a cycle of names. -/
theorem LoweredRules.renames_of_comesBack (lowered : builder.LoweredRules state rules)
    (coherent : Coherent builder.Contains) (isBound : Grammar.bindAll rules state.nodes = .ok bound)
    {name : String} (comesBack : Grammar.ComesBack bound name) :
    Relation.TransGen builder.Renames name name := by
  rcases comesBack with ⟨place, target, expected, found, cycle⟩
  rcases Relation.TransGen.head'_iff.mp cycle with ⟨next, ⟨name', expected', found'⟩, path⟩
  cases found.symm.trans found'
  rcases lowered.reference_of_bound coherent isBound found with
    ⟨_, _, definition, root, _, _, _, isDefinition, rootPlaces, isTarget⟩
  cases isTarget
  rcases lowered.renames_of_path coherent isBound ⟨definition, isDefinition, rootPlaces⟩ path with
    ⟨last, renames, lastRoot⟩
  exact .tail' renames (lowered.renames_of_bound coherent isBound lastRoot found).1

/-- If all references are to rules of the right type, all of them can be bound. -/
theorem LoweredRules.bindAll_succeeds (lowered : builder.LoweredRules state rules)
    (coherent : Coherent builder.Contains) (refersWell : builder.RefersWell) :
    exists bound, Grammar.bindAll rules state.nodes = .ok bound := by
  apply Grammar.bindAll_of_forall
  intro clause member
  rcases List.getElem_of_mem member with ⟨id, inRange, rfl⟩
  rcases lowered.represents.filled id inRange with ⟨expr, contained, places⟩
  rcases lowered.represents.holds_of_places coherent contained places with
    ⟨compiled, clause, isCompiled, found, corresponds⟩
  rw [List.getElem?_eq_getElem inRange] at found
  cases found
  cases isReference : (state.nodes[id]).isReference with
  | false =>
      refine ⟨state.nodes[id], ?_⟩
      cases isClause : state.nodes[id] with
      | reference name expected target =>
          rw [isClause] at isReference
          cases isReference
      | _ => rfl
  | true =>
      have isReference' : expr.clause.isReference = true := by
        rw [<- Clause.isReference_compiled isCompiled, corresponds.isReference_eq, isReference]
      rcases Clause.eq_reference_of_isReference isReference' with
        ⟨name, expected, reference, isClause⟩
      rw [isClause] at isCompiled
      cases isCompiled
      rcases refersWell expr name expected reference contained isClause with
        ⟨definition, isDefinition, sameType⟩
      have related := find?_rule lowered.rules name
      rw [definition?] at isDefinition
      rw [isDefinition] at related
      generalize state.nodes[id] = node at corresponds
      cases corresponds with
      | @reference _ _ _ unbound =>
          rw [Grammar.bind]
          cases isRule : rules.find? (·.name == name) with
          | none =>
              rw [isRule] at related
              cases related
          | some rule =>
              rw [isRule] at related
              cases related with
              | some isLowered =>
                  dsimp only
                  rw [if_pos (isLowered.type.trans sameType)]
                  exact ⟨_, rfl⟩

end Lowered

/-! ## Building -/

theorem validated_ne_cyclicReference (grammar : Grammar L) (name : String) :
    (grammar.validate grammar.nodes (Nullability.unknown grammar.nodeCount)).map
      (BuiltGrammar.mk grammar) ≠ .error (.cyclicReference name) := by
  have noFault := grammar.validate_ne_cyclicReference grammar.nodes
    (Nullability.unknown grammar.nodeCount) name
  cases validated : grammar.validate grammar.nodes (Nullability.unknown grammar.nodeCount) with
  | error error =>
      intro fails
      cases fails
      exact noFault validated
  | ok known =>
      intro fails
      cases fails

/-- A grammar whose rules have names of their own and can be lowered, and whose references are
to rules of the right type, is refused for a cycle of references exactly if there is one, and
the reported name is on such a cycle.  Otherwise every expression leads to one operator, the
node of the expression is that of the operator, and the operands of all nodes and the roots of
all rules are such nodes. -/
theorem build_resolves_chains {cache : PatternCache} (sound : cache.Sound)
    (coherent : Coherent builder.Contains)
    (different : (builder.definitions.map fun definition => definition.name).Nodup)
    {rules : List (Rule L)} {state : LoweringState L}
    (yields : (lowerRules builder.definitions).Yields (Lowering.start cache) rules state)
    (refersWell : builder.RefersWell) :
    ((exists name, (builder.build cache).1 = .error (.cyclicReference name)) ↔
      exists name, Relation.TransGen builder.Renames name name) ∧
    (forall name, (builder.build cache).1 = .error (.cyclicReference name) ->
      Relation.TransGen builder.Renames name name) ∧
    ((forall name, ¬Relation.TransGen builder.Renames name name) ->
      exists grammar node longest,
        (builder.build cache).1 = (grammar.validate grammar.nodes
          (Nullability.unknown grammar.nodeCount)).map (BuiltGrammar.mk grammar) ∧
        builder.Resolution grammar node longest ∧
        forall expr, builder.Contains expr ->
          exists last clause, (exists length, builder.Leads length expr last) ∧
            (forall other, (exists length, builder.Leads length expr other) -> other = last) ∧
            node expr = node last ∧ grammar.nodes[node last]? = some clause ∧
            clause.isReference = false) := by
  have lowered := loweredRules_of_yields coherent sound yields
  rcases lowered.bindAll_succeeds coherent refersWell with ⟨bound, isBound⟩
  have isBuild := build_of_yields different yields
  cases areTargets : Grammar.targets bound with
  | error error =>
      rcases Grammar.targets_error (Grammar.bindAll_fullyBound isBound) areTargets with
        ⟨name, rfl, comesBack⟩
      have isCycle := lowered.renames_of_comesBack coherent isBound comesBack
      have fails : (builder.build cache).1 = .error (.cyclicReference name) := by
        rw [isBuild, resolve, isBound]
        dsimp only
        rw [areTargets]
      refine ⟨⟨fun _ => ⟨name, isCycle⟩, fun _ => ⟨name, fails⟩⟩, ?_, ?_⟩
      · intro other fails'
        cases fails.symm.trans fails'
        exact isCycle
      · intro none
        exact absurd isCycle (none name)
  | ok targets =>
      have parts : builder.Assembly state rules bound targets :=
        ⟨lowered, coherent, different, isBound, areTargets⟩
      let grammar := Grammar.redirect targets ⟨bound, rules⟩
      have isValidated : (builder.build cache).1 = (grammar.validate grammar.nodes
          (Nullability.unknown grammar.nodeCount)).map (BuiltGrammar.mk grammar) := by
        rw [isBuild]
        exact resolve_of_targets isBound areTargets
      have noFailure : forall name, (builder.build cache).1 ≠ .error (.cyclicReference name) := by
        intro name
        rw [isValidated]
        exact validated_ne_cyclicReference grammar name
      refine ⟨⟨?_, ?_⟩, ?_, ?_⟩
      · rintro ⟨name, fails⟩
        exact absurd fails (noFailure name)
      · rintro ⟨name, isCycle⟩
        exact absurd isCycle (parts.resolution.acyclic name)
      · intro name fails
        exact absurd fails (noFailure name)
      · intro _
        exact ⟨grammar, _, _, isValidated, parts.resolution,
          fun _ contained => parts.resolution.end_unique contained⟩

/-- A rule that is another name for one of two rules that are names for each other. -/
def twins : GrammarBuilder plainText :=
  ⟨[⟨"first", .text, (Parser.reference "second" .text 0).1⟩,
    ⟨"second", .text, (Parser.reference "third" .text 1).1⟩,
    ⟨"third", .text, (Parser.reference "second" .text 2).1⟩]⟩

theorem twins_coherent : Coherent twins.Contains := by
  have keys : KeysBelow 1 [Expr.node (L := plainText) 0 (.reference "second" .text none)] :=
    (KeysBelow.none 0).over _ (List.nil_subset _)
  have keys := keys.over (.reference "third" .text none) (List.nil_subset _)
  have keys := keys.over (.reference "second" .text none) (List.nil_subset _)
  apply keys.contains_coherent
  intro definition member
  rcases member with _ | ⟨_, _ | ⟨_, _ | ⟨_, none⟩⟩⟩
  · exact List.mem_cons_of_mem _ (List.mem_cons_of_mem _ (List.mem_cons_self ..))
  · exact List.mem_cons_of_mem _ (List.mem_cons_self ..)
  · exact List.mem_cons_self ..
  · cases none

theorem twins_referWell : twins.RefersWell := by
  rintro expr name expected target ⟨definition, member, within⟩ isClause
  rcases member with _ | ⟨_, _ | ⟨_, _ | ⟨_, none⟩⟩⟩
  · cases within with
    | self =>
        cases isClause
        exact ⟨_, rfl, rfl⟩
    | operand isChild _ => cases isChild
  · cases within with
    | self =>
        cases isClause
        exact ⟨_, rfl, rfl⟩
    | operand isChild _ => cases isChild
  · cases within with
    | self =>
        cases isClause
        exact ⟨_, rfl, rfl⟩
    | operand isChild _ => cases isChild
  · cases none

/-- The chain that enters the cycle comes back to the second rule, and reports what this one
refers to. -/
theorem twins_refused :
    (twins.build PatternCache.empty).1 = .error (.cyclicReference "third") ∧
      Relation.TransGen twins.Renames "third" "third" := by
  refine ⟨rfl, ?_⟩
  exact (build_resolves_chains PatternCache.empty_sound twins_coherent (by decide) rfl
    twins_referWell).2.1 "third" rfl

end GrammarBuilder
end SeedGrammar
