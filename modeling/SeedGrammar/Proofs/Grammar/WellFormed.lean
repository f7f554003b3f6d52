import SeedGrammar.Proofs.Grammar.FoldingRules
import SeedGrammar.Proofs.Grammar.Numbering
import SeedGrammar.Proofs.Grammar.QueryHistory

namespace SeedGrammar

/-!
# Built grammars are well-formed

What the engine and the lints take for granted about a grammar comes from
different steps of building it.  Lowering places every expression once, after
its operands, and refuses clauses without operands and empty literals.  Binding
and redirecting replace what names rules by what the rules are, and change
nothing else about a node.  The check at the end looks at clauses that loop, and
what it has found out about their operands stays so.

Nodes and expressions are the same things counted in two ways.  Every
expression of the rules has a place of its own, also the references, and there
are no other places.  The operands of a node are not always at the places of the
operands of its expression, since a reference gives way to what it leads to.
-/

variable {L : Signature}

namespace GrammarBuilder

/-- Whether an expression leads to one that is placed at a node. -/
def LandsAt (builder : GrammarBuilder L) (place : Expr L -> NodeId) (expr : Expr L)
    (id : NodeId) : Prop :=
  exists length last, builder.Leads length expr last ∧ place last = id

/-- Whether a rule has name and type of a definition, and starts where its
expression leads to. -/
structure LowersTo (builder : GrammarBuilder L) (place : Expr L -> NodeId)
    (definition : Definition L) (rule : Rule L) : Prop where
  name : rule.name = definition.name
  type : rule.type = definition.type
  root : builder.LandsAt place definition.parser.expr rule.root

/-- The nodes of a grammar are the places of the expressions of its rules: each
expression has one of its own, and there are no others.  An operand that is not a
reference is placed before what it is an operand of. -/
structure Placement (builder : GrammarBuilder L) (grammar : Grammar L)
    (place : Expr L -> NodeId) : Prop where
  injective : forall first second, builder.Contains first -> builder.Contains second ->
    place first = place second -> first = second
  onto : forall id, id < grammar.nodeCount -> exists expr, builder.Contains expr ∧ place expr = id
  clause : forall expr, builder.Contains expr ->
    exists compiled clause, expr.clause.compiled? = some compiled ∧
      grammar.nodes[place expr]? = some clause ∧
      compiled.Corresponds Eq (builder.LandsAt place) clause
  descends : forall expr child, builder.Contains expr -> child ∈ expr.clause.children ->
    child.clause.isReference = false -> place child < place expr
  rules : List.Forall₂ (builder.LowersTo place) builder.definitions grammar.rules

end GrammarBuilder

namespace Grammar

/-- Whether a node exists and is not a reference. -/
def HasOperator (grammar : Grammar L) (id : NodeId) : Prop :=
  exists clause, grammar.nodes[id]? = some clause ∧ clause.isReference = false

/-- Whether a grammar, with what is known about it, is as the engine and the
lints expect. -/
structure WellFormed (grammar : Grammar L) (known : Nullability) : Prop where
  operands : forall id child, grammar.Edge Clause.children id child -> grammar.HasOperator child
  roots : forall rule, rule ∈ grammar.rules -> grammar.HasOperator rule.root
  sequences : forall (id : NodeId) items gather,
    grammar.nodes[id]? = some (.sequence items gather) -> items ≠ []
  choices : forall (id : NodeId) alts, grammar.nodes[id]? = some (.choice alts) -> alts ≠ []
  literals : forall (id : NodeId) literal,
    grammar.nodes[id]? = some (.leaf (.exact literal)) -> Stream.length literal ≠ 0
  bounds : forall (id : NodeId) inner element min max,
    grammar.nodes[id]? = some (.repeated inner element min (some max)) -> min ≤ max
  loops : forall (id : NodeId) clause inner, grammar.nodes[id]? = some clause ->
    clause.looped? = some inner -> forall queries,
      (grammar.isNullable inner (grammar.knownAfter queries known)).1 = false

end Grammar

/-! ## Places -/

namespace GrammarBuilder

/-- The node that an expression has been placed at. -/
def placeOf (state : LoweringState L) (expr : Expr L) : NodeId :=
  (state.placedAt? expr.key).getD 0

theorem placeOf_of_places {state : LoweringState L} {expr : Expr L} {id : NodeId}
    (places : state.Places expr id) : placeOf state expr = id := by
  have placed : state.placedAt? expr.key = some id := places
  rw [placeOf, placed, Option.getD_some]

namespace Assembly

variable {builder : GrammarBuilder L} {state : LoweringState L} {rules : List (Rule L)}
  {bound : List (Clause L PatternProgram NodeId)} {targets : List NodeId}

/-- What a node is replaced by is the place of what its expression leads to. -/
theorem landsAt (parts : builder.Assembly state rules bound targets) {expr : Expr L}
    (contained : builder.Contains expr) {id : NodeId} (places : state.Places expr id) :
    builder.LandsAt (placeOf state) expr (target targets id) := by
  rcases parts.held contained places with ⟨_, _, _, length, last, _, _, _, _, _, _, chain⟩
  rcases parts.leads_of_chain chain contained places with ⟨final, leads⟩
  have finalContained := leads.contains contained
  rcases parts.lowered.placed final finalContained with ⟨lastId, lastPlaces⟩
  rcases parts.kept finalContained leads.operator lastPlaces with ⟨_, _, _, _, _, kept⟩
  refine ⟨length, final, leads, ?_⟩
  calc placeOf state final = lastId := placeOf_of_places lastPlaces
    _ = node state targets final := kept.symm
    _ = node state targets expr := (parts.resolution.node_leads leads contained).symm
    _ = target targets id := node_of_places places

/-- The clause at the place of an expression. -/
theorem clause_at_place (parts : builder.Assembly state rules bound targets) {expr : Expr L}
    (contained : builder.Contains expr) :
    exists compiled clause, expr.clause.compiled? = some compiled ∧
      (Grammar.redirect targets ⟨bound, rules⟩).nodes[placeOf state expr]? = some clause ∧
      compiled.Corresponds Eq (builder.LandsAt (placeOf state)) clause := by
  rcases parts.lowered.placed expr contained with ⟨id, places⟩
  rcases parts.held contained places with
    ⟨compiled, clause, clause', _, _, isCompiled, corresponds, isBound, found, _⟩
  refine ⟨compiled, clause'.redirect (target targets), isCompiled, ?_, ?_⟩
  · rw [placeOf_of_places places]
    exact List.getElem?_map.trans (congrArg _ found)
  · rcases Grammar.bind_ok isBound with ⟨_, same⟩ | ⟨name, expected, reference, rule, rfl, _, _, rfl⟩
    · rw [same]
      apply Clause.Corresponds.redirect
      apply corresponds.imp
      intro child childId isChild childPlaces
      rw [Clause.children_compiled isCompiled] at isChild
      exact parts.landsAt (builder.contains_operandClosed expr child contained isChild) childPlaces
    · cases corresponds with
      | reference => exact .reference

/-- An operand is placed before what it is an operand of. -/
theorem place_descends (parts : builder.Assembly state rules bound targets)
    (numbered : state.Numbered) {expr child : Expr L} (contained : builder.Contains expr)
    (isChild : child ∈ expr.clause.children) : placeOf state child < placeOf state expr := by
  rcases parts.lowered.placed expr contained with ⟨id, places⟩
  rcases parts.lowered.represents.holds_of_places parts.coherent contained places with
    ⟨compiled, clause, isCompiled, found, corresponds⟩
  have related := corresponds.children
  rw [Clause.children_compiled isCompiled] at related
  rcases List.mem_iff_getElem.mp isChild with ⟨index, inChildren, rfl⟩
  have inOperands : index < clause.children.length := related.length_eq ▸ inChildren
  have childPlaces : state.Places expr.clause.children[index] clause.children[index] :=
    related.get inChildren inOperands
  rw [placeOf_of_places places, placeOf_of_places childPlaces]
  exact (numbered.nodes id clause found).operands _ (List.getElem_mem inOperands)

theorem placement (parts : builder.Assembly state rules bound targets)
    (numbered : state.Numbered) :
    builder.Placement (Grammar.redirect targets ⟨bound, rules⟩) (placeOf state) where
  injective := by
    intro first second firstContained secondContained samePlace
    rcases parts.lowered.placed first firstContained with ⟨id, places⟩
    rcases parts.lowered.placed second secondContained with ⟨id', places'⟩
    rw [placeOf_of_places places, placeOf_of_places places'] at samePlace
    subst samePlace
    exact parts.coherent first second firstContained secondContained
      (parts.lowered.represents.distinct _ _ id places places')
  onto := by
    intro id inRange
    have sameCount : (Grammar.redirect targets ⟨bound, rules⟩).nodeCount = state.nodes.length :=
      (List.length_map _).trans (Grammar.bindAll_ok parts.isBound).length_eq.symm
    rw [sameCount] at inRange
    rcases parts.lowered.represents.filled id inRange with ⟨expr, contained, places⟩
    exact ⟨expr, contained, placeOf_of_places places⟩
  clause _ contained := parts.clause_at_place contained
  descends _ _ contained isChild _ := parts.place_descends numbered contained isChild
  rules := by
    change List.Forall₂ _ _ (rules.map fun rule => { rule with root := target targets rule.root })
    rw [List.forall₂_map_right_iff]
    apply List.forall₂_iff_get.mpr
    refine ⟨parts.lowered.rules.length_eq, ?_⟩
    intro index inDefinitions inRules
    have lowered := parts.lowered.rules.get inDefinitions inRules
    have contained := contains_root (List.get_mem builder.definitions ⟨index, inDefinitions⟩)
    exact ⟨lowered.name, lowered.type, parts.landsAt contained lowered.root⟩

end Assembly

/-! ## Nodes -/

namespace Placement

variable {builder : GrammarBuilder L} {grammar : Grammar L} {place : Expr L -> NodeId}

/-- What an expression leads to is an operator. -/
theorem hasOperator (placement : builder.Placement grammar place) {expr : Expr L}
    (contained : builder.Contains expr) {id : NodeId} (lands : builder.LandsAt place expr id) :
    grammar.HasOperator id := by
  rcases lands with ⟨length, last, leads, rfl⟩
  rcases placement.clause last (leads.contains contained) with
    ⟨compiled, clause, isCompiled, found, corresponds⟩
  refine ⟨clause, found, ?_⟩
  rw [<- corresponds.isReference_eq, Clause.isReference_compiled isCompiled, leads.operator]

/-- A node is that of an expression. -/
theorem clause_of_found (placement : builder.Placement grammar place) {id : NodeId}
    {clause : Clause L PatternProgram NodeId} (found : grammar.nodes[id]? = some clause) :
    exists expr compiled, builder.Contains expr ∧ expr.clause.compiled? = some compiled ∧
      compiled.Corresponds Eq (builder.LandsAt place) clause := by
  rcases placement.onto id (List.getElem?_eq_some_iff.mp found).1 with ⟨expr, contained, rfl⟩
  rcases placement.clause expr contained with ⟨compiled, clause', isCompiled, found', corresponds⟩
  rw [found] at found'
  cases found'
  exact ⟨expr, compiled, contained, isCompiled, corresponds⟩

theorem hasOperator_of_edge (placement : builder.Placement grammar place) {id child : NodeId}
    (edge : grammar.Edge Clause.children id child) : grammar.HasOperator child := by
  rcases edge with ⟨clause, found, isChild⟩
  rcases placement.clause_of_found found with ⟨expr, compiled, contained, isCompiled, corresponds⟩
  have related := corresponds.children
  rw [Clause.children_compiled isCompiled] at related
  rcases List.mem_iff_getElem.mp isChild with ⟨index, inOperands, rfl⟩
  have inChildren : index < expr.clause.children.length := related.length_eq ▸ inOperands
  have childContained : builder.Contains expr.clause.children[index] :=
    builder.contains_operandClosed expr _ contained (List.getElem_mem inChildren)
  exact placement.hasOperator childContained (related.get inChildren inOperands)

theorem hasOperator_of_root (placement : builder.Placement grammar place) {rule : Rule L}
    (member : rule ∈ grammar.rules) : grammar.HasOperator rule.root := by
  rcases List.mem_iff_getElem.mp member with ⟨index, inRules, rfl⟩
  have inDefinitions : index < builder.definitions.length :=
    placement.rules.length_eq ▸ inRules
  have contained := contains_root (List.getElem_mem inDefinitions)
  exact placement.hasOperator contained (placement.rules.get inDefinitions inRules).root

/-- No sequence or choice of nothing is lowered. -/
theorem notEmpty (placement : builder.Placement grammar place) {id : NodeId}
    {clause : Clause L PatternProgram NodeId} (found : grammar.nodes[id]? = some clause) :
    clause.NotEmpty := by
  rcases placement.clause_of_found found with ⟨expr, compiled, _, isCompiled, corresponds⟩
  have notEmpty := Clause.compiled_notEmpty isCompiled
  cases corresponds with
  | sequence related =>
      rintro rfl
      cases related
      exact notEmpty rfl
  | choice related =>
      rintro rfl
      cases related
      exact notEmpty rfl
  | _ => trivial

end Placement

/-- The expressions of the rules have their places in the grammar that is built. -/
theorem build_placed {builder : GrammarBuilder L} {cache after : PatternCache}
    {built : BuiltGrammar L} (sound : cache.Sound) (coherent : Coherent builder.Contains)
    (accepted : builder.build cache = (.ok built, after)) :
    exists place, builder.Placement built.grammar place := by
  rcases build_assembled sound coherent accepted with
    ⟨state, rules, bound, targets, yields, parts, isGrammar⟩
  refine ⟨placeOf state, ?_⟩
  rw [isGrammar]
  exact parts.placement (numbered_of_yields yields).1

/-- A grammar that is accepted consists of the expressions of its rules, each at a
place of its own, and is well-formed, whatever it is asked later. -/
theorem build_wellFormed {builder : GrammarBuilder L} {cache after : PatternCache}
    {built : BuiltGrammar L} (sound : cache.Sound) (coherent : Coherent builder.Contains)
    (accepted : builder.build cache = (.ok built, after)) :
    (exists place, builder.Placement built.grammar place) ∧
      built.grammar.WellFormed built.known := by
  rcases build_placed sound coherent accepted with ⟨place, placement⟩
  refine ⟨⟨place, placement⟩, ?_⟩
  constructor
  · intro id child edge
    exact placement.hasOperator_of_edge edge
  · intro rule member
    exact placement.hasOperator_of_root member
  · intro id items gather found
    exact placement.notEmpty found
  · intro id alts found
    exact placement.notEmpty found
  · exact (build_ordered accepted).literals
  · intro id inner element min max found
    exact ((build_advances accepted).2 id _ found).2 max rfl
  · intro id clause inner found loops queries
    have denied := (build_denies accepted).2 id clause found inner loops
    have asked := built.grammar.knownAfter_asked queries built.known
    exact built.grammar.isNullableWithin_of_denied _ (denied.extends asked.extends)

/-- The rule of sums has eight expressions.  The term is one of them though it is
used twice, and the operands of the step are the root and the tail. -/
theorem sums_wellFormed : exists known,
    sums.build PatternCache.empty = (.ok ⟨sumGrammar, known⟩, PatternCache.empty) ∧
      (exists place, sums.Placement sumGrammar place) ∧ sumGrammar.WellFormed known := by
  rcases sums_accepted with ⟨known, accepted⟩
  exact ⟨known, accepted, build_wellFormed PatternCache.empty_sound sums_coherent accepted⟩

end GrammarBuilder
end SeedGrammar
