import SeedGrammar.Proofs.Engine.Preservation
import SeedGrammar.Proofs.Grammar.Exchange

namespace SeedGrammar

/-!
# Runs of grammars that differ in one expression

When one expression has taken the place of another, the two grammars are built
to different nodes, with other numbers.  They are compared node by node: the
node of each expression with the node of its counterpart.  Seeds are kept under
numbers, so two contexts count as the same if the seeds under a node are those
under the node of its counterpart.  Keys name operators once in each grammar and
are not touched by the exchange, hence no seed is mistaken for another.

All that has to be known of the two expressions is that one does what the
other does wherever everything else does (`Mimics`).  It may take more steps for
it.  By induction on the steps this carries over to the whole grammar
(`Exchange.run_follows`), and from there to parsing from any position.

Failures carry numbers of nodes, and functions of the author can see them.
Which numbers count as the same is a parameter; the functions must not tell such
numbers apart.  If all numbers count as the same these are the functions that are
blind to them.
-/

variable {L : Signature}

/-! ## Functions that do not tell numbers apart -/

/-- Whether a function gives the same, up to numbers that count as the same,
at nodes of such numbers and for outcomes that are the same up to them. -/
def Transform.Respects (nodes : NodeId -> NodeId -> Prop) (transform : Transform L) : Prop :=
  forall outcome outcome' input range state id id', nodes id id' ->
    AnswersAlike nodes outcome outcome' ->
    ResultsAlike nodes (transform outcome ⟨input, range, state, id⟩)
      (transform outcome' ⟨input, range, state, id'⟩)

/-- Whether the functions of a clause do not tell apart what counts as the
same. -/
def Clause.Respects {ρ α : Type} (nodes : NodeId -> NodeId -> Prop) : Clause L ρ α -> Prop
  | .map _ transform => transform.Respects nodes
  | .update _ next => forall input range state id id', nodes id id' ->
      next state ⟨input, range, state, id⟩ = next state ⟨input, range, state, id'⟩
  | _ => True

/-- Whether no function in the rules of a grammar tells apart what counts as the
same. -/
def GrammarBuilder.Respects (builder : GrammarBuilder L) (nodes : NodeId -> NodeId -> Prop) :
    Prop :=
  forall expr, builder.Contains expr -> expr.clause.Respects nodes

/-- A function that is blind to numbers tells none apart. -/
theorem GrammarBuilder.NodeBlind.respects {builder : GrammarBuilder L}
    (blind : builder.NodeBlind) : builder.Respects fun _ _ => True := by
  intro expr contained
  have own := blind.clause contained
  generalize expr.clause = clause at own
  cases clause with
  | map inner transform =>
      intro outcome outcome' input range state id id' _ alike
      exact own outcome outcome' input range state id id' alike
  | update inner next =>
      intro input range state id id' _
      exact own input range state id id'
  | _ => trivial

theorem Clause.Corresponds.respects {ρ σ α β : Type} {leaves : Leaf L ρ -> Leaf L σ -> Prop}
    {operands : α -> β -> Prop} {nodes : NodeId -> NodeId -> Prop} {clause : Clause L ρ α}
    {other : Clause L σ β} (corresponds : clause.Corresponds leaves operands other)
    (respects : clause.Respects nodes) : other.Respects nodes := by
  cases corresponds with
  | map _ => exact respects
  | update _ => exact respects
  | _ => trivial

/-! ### The same with the sides exchanged -/

section Sides

variable {nodes : NodeId -> NodeId -> Prop}

theorem ParseError.Alike.flip {ε : Type} {error other : ParseError ε}
    (alike : error.Alike nodes other) : other.Alike (fun id id' => nodes id' id) error := by
  refine ⟨alike.position.symm, ?_, alike.message.symm, alike.payload.symm⟩
  have sameNode := alike.node
  generalize error.node = node at sameNode ⊢
  generalize other.node = node' at sameNode ⊢
  cases sameNode with
  | some same => exact .some same
  | none => exact .none

theorem AnswersAlike.flip {ε β : Type} {answer other : Except (ParseError ε) β}
    (alike : AnswersAlike nodes answer other) :
    AnswersAlike (fun id id' => nodes id' id) other answer := by
  cases alike with
  | ok value => exact .ok value
  | error alike => exact .error alike.flip

theorem Fault.Alike.flip {fault other : Fault} (alike : fault.Alike nodes other) :
    other.Alike (fun id id' => nodes id' id) fault := by
  cases alike with
  | nodeOutOfRange same => exact .nodeOutOfRange same
  | unresolvedReference same => exact .unresolvedReference same
  | emptyChoice same => exact .emptyChoice same
  | missingSeed same => exact .missingSeed same
  | wrongType same => exact .wrongType same

theorem ResultsAlike.flip {result other : Except Fault (Outcome L)}
    (alike : ResultsAlike nodes result other) :
    ResultsAlike (fun id id' => nodes id' id) other result := by
  cases alike with
  | ok alike => exact .ok alike.flip
  | error alike => exact .error alike.flip

theorem Transform.Respects.flip {transform : Transform L} (respects : transform.Respects nodes) :
    transform.Respects fun id id' => nodes id' id := by
  intro outcome outcome' input range state id id' same alike
  exact (respects outcome' outcome input range state id' id same alike.flip).flip

theorem Clause.Respects.flip {ρ α : Type} {clause : Clause L ρ α}
    (respects : clause.Respects nodes) : clause.Respects fun id id' => nodes id' id := by
  cases clause with
  | map inner transform => exact Transform.Respects.flip respects
  | update inner next =>
      intro input range state id id' same
      exact (respects input range state id' id same).symm
  | _ => trivial

end Sides

/-! ## Grammars with their nodes -/

/-- A grammar as it is written together with what it is built to, and the node
of each of its expressions. -/
structure ResolvedGrammar (L : Signature) where
  builder : GrammarBuilder L
  grammar : Grammar L
  node : Expr L -> NodeId
  longest : Nat
  resolution : builder.Resolution grammar node longest
  coherent : Coherent builder.Contains

/-- A grammar that is built is resolved. -/
theorem GrammarBuilder.build_resolved {builder : GrammarBuilder L} {cache after : PatternCache}
    {built : BuiltGrammar L} (sound : cache.Sound) (coherent : Coherent builder.Contains)
    (accepted : builder.build cache = (.ok built, after)) :
    exists resolved : ResolvedGrammar L,
      resolved.builder = builder ∧ resolved.grammar = built.grammar := by
  rcases build_resolves sound coherent accepted with ⟨node, longest, resolution⟩
  exact ⟨⟨builder, built.grammar, node, longest, resolution, coherent⟩, rfl, rfl⟩

namespace ResolvedGrammar

/-- Operators of two grammars that have the same key. -/
structure Twins (left right : ResolvedGrammar L) (expr other : Expr L) : Prop where
  operator : left.builder.Operator expr
  operator' : right.builder.Operator other
  key : expr.key = other.key

/-- Nodes whose expressions differ in the exchange only. -/
inductive Counterparts (left right : ResolvedGrammar L) (old new : Expr L) :
    NodeId -> NodeId -> Prop where
  | intro {expr other : Expr L} : left.builder.Contains expr -> right.builder.Contains other ->
      Expr.Exchanged old new expr other ->
      Counterparts left right old new (left.node expr) (right.node other)

theorem Counterparts.flip {left right : ResolvedGrammar L} {old new : Expr L} {id id' : NodeId}
    (counterparts : Counterparts left right old new id id') :
    Counterparts right left new old id' id := by
  cases counterparts with
  | intro contained contained' exchanged => exact .intro contained' contained exchanged.flip

theorem twins_left {left right : ResolvedGrammar L} {expr expr' other : Expr L}
    (twins : Twins left right expr other) (twins' : Twins left right expr' other) :
    expr = expr' := by
  apply left.coherent expr expr' twins.operator.1 twins'.operator.1
  rw [twins.key, twins'.key]

theorem twins_right {left right : ResolvedGrammar L} {expr other other' : Expr L}
    (twins : Twins left right expr other) (twins' : Twins left right expr other') :
    other = other' := by
  apply right.coherent other other' twins.operator'.1 twins'.operator'.1
  rw [<- twins.key, <- twins'.key]

end ResolvedGrammar

namespace Agreement

/-- The comparison of runs of two grammars that keep the seeds of each operator
under its node. -/
def keyed (left right : ResolvedGrammar L) (nodes : NodeId -> NodeId -> Prop) :
    Agreement L where
  nodes := nodes
  contexts first second :=
    first.position = second.position ∧ first.state = second.state ∧
      forall expr other, left.Twins right expr other -> forall start,
        Option.Rel (SeedsAlike nodes) (first.seeds.get? (left.node expr) start)
          (second.seeds.get? (right.node other) start)
  position same := same.1
  state same := same.2.1
  moved same _ _ := ⟨rfl, rfl, same.2.2⟩
  ranged same _ := same

variable {left right : ResolvedGrammar L} {nodes : NodeId -> NodeId -> Prop}

/-- Operators of the same key bear the comparison if their functions do. -/
theorem keyed_bears {expr other : Expr L} (twins : left.Twins right expr other)
    (same : nodes (left.node expr) (right.node other)) {ρ α : Type} {clause : Clause L ρ α}
    (respects : clause.Respects nodes) :
    (keyed left right nodes).Bears (left.node expr) (right.node other) clause := by
  cases clause with
  | map inner transform =>
      intro outcome outcome' input range state alike
      exact respects outcome outcome' input range state _ _ same alike
  | update inner next =>
      intro input range state
      exact respects input range state _ _ same
  | leftRecursion inner =>
      constructor
      · intro first second agree start
        exact agree.2.2 expr other twins start
      · intro first second agree start seed seed' seeds
        refine ⟨agree.1, agree.2.1, ?_⟩
        intro expr' other' twins' place
        by_cases here : expr' = expr ∧ place = start
        · rcases here with ⟨rfl, rfl⟩
          rw [ResolvedGrammar.twins_right twins' twins]
          simp only [SeedTable.get?_set_self]
          exact .some seeds
        · have elsewhere : (left.node expr', place) ≠ (left.node expr, start) := by
            intro names
            rcases Prod.mk.inj names with ⟨sameName, samePlace⟩
            exact here ⟨left.resolution.node_injective _ _ twins'.operator twins.operator sameName,
              samePlace⟩
          have elsewhere' : (right.node other', place) ≠ (right.node other, start) := by
            intro names
            rcases Prod.mk.inj names with ⟨sameName, samePlace⟩
            have sameOther := right.resolution.node_injective _ _ twins'.operator' twins.operator'
              sameName
            subst sameOther
            exact here ⟨ResolvedGrammar.twins_left twins' twins, samePlace⟩
          simp only [SeedTable.get?_set_of_ne _ seed elsewhere,
            SeedTable.get?_set_of_ne _ seed' elsewhere']
          exact agree.2.2 expr' other' twins' place
  | _ => trivial

end Agreement

/-! ## Clauses that are built alike -/

/-- Clauses that correspond are lowered to clauses that do. -/
theorem Clause.Corresponds.lowered {α β : Type} {operands : α -> β -> Prop}
    {clause : Clause L Unit α} {clause' : Clause L Unit β}
    (corresponds : clause.Corresponds Eq operands clause')
    {compiled : Clause L PatternProgram α} {compiled' : Clause L PatternProgram β}
    (isCompiled : clause.compiled? = some compiled)
    (isCompiled' : clause'.compiled? = some compiled') :
    compiled.Corresponds Eq operands compiled' := by
  cases corresponds with
  | @leaf atom atom' same =>
      subst same
      rw [Clause.compiled?] at isCompiled isCompiled'
      rcases Option.map_eq_some_iff.mp isCompiled with ⟨lowered, isLowered, rfl⟩
      rcases Option.map_eq_some_iff.mp isCompiled' with ⟨lowered', isLowered', rfl⟩
      rw [isLowered] at isLowered'
      exact .leaf (Option.some.inj isLowered')
  | sequence items =>
      rw [Clause.compiled?, Option.ite_none_left_eq_some] at isCompiled isCompiled'
      cases isCompiled.2
      cases isCompiled'.2
      exact .sequence items
  | choice alts =>
      rw [Clause.compiled?, Option.ite_none_left_eq_some] at isCompiled isCompiled'
      cases isCompiled.2
      cases isCompiled'.2
      exact .choice alts
  | map inner =>
      cases isCompiled
      cases isCompiled'
      exact .map inner
  | update inner =>
      cases isCompiled
      cases isCompiled'
      exact .update inner
  | optional inner =>
      cases isCompiled
      cases isCompiled'
      exact .optional inner
  | attempt inner =>
      cases isCompiled
      cases isCompiled'
      exact .attempt inner
  | lookahead inner look =>
      cases isCompiled
      cases isCompiled'
      exact .lookahead inner look
  | repeated inner =>
      cases isCompiled
      cases isCompiled'
      exact .repeated inner
  | reference =>
      cases isCompiled
      cases isCompiled'
      exact .reference
  | leftRecursion inner =>
      cases isCompiled
      cases isCompiled'
      exact .leftRecursion inner

/-- Images of clauses correspond if the images of their operands are related. -/
theorem Clause.Corresponds.images {ρ α β γ δ : Type} {f : α -> γ} {g : β -> δ}
    {operands : γ -> δ -> Prop} {clause : Clause L ρ α} {clause' : Clause L ρ β}
    (corresponds : clause.Corresponds Eq (fun operand operand' => operands (f operand) (g operand'))
      clause') : (clause.mapOperands f).Corresponds Eq operands (clause'.mapOperands g) := by
  have mapped : forall (items : List α) (items' : List β),
      List.Forall₂ (fun operand operand' => operands (f operand) (g operand')) items items' ->
        List.Forall₂ operands (items.map f) (items'.map g) := by
    intro items items' related
    exact List.forall₂_map_left_iff.mpr (List.forall₂_map_right_iff.mpr related)
  cases corresponds with
  | leaf same => exact .leaf same
  | map inner => exact .map inner
  | update inner => exact .update inner
  | sequence items => exact .sequence (mapped _ _ items)
  | choice alts => exact .choice (mapped _ _ alts)
  | optional inner => exact .optional inner
  | attempt inner => exact .attempt inner
  | lookahead inner look => exact .lookahead inner look
  | repeated inner => exact .repeated inner
  | reference => exact .reference
  | leftRecursion inner => exact .leftRecursion inner

/-! ## Runs -/

/-- What a run with more steps is followed by, a run with fewer steps is too. -/
theorem Machine.run_follows_of_more {agreement : Agreement L} {machine : Machine L}
    {steps more depth : Nat} {id : NodeId} {context : Context L} {other : Reply L (Outcome L)}
    (enough : steps ≤ more)
    (follows : (machine.run more depth id context).Follows agreement other) :
    (machine.run steps depth id context).Follows agreement other := by
  by_cases spent : machine.run steps depth id context = .exhausted
  · rw [spent]
    exact .exhausted
  · rw [<- Machine.run_more enough spent]
    exact follows

namespace ResolvedGrammar

/-- The grammar at work on an input, without a limit on nesting. -/
def machine (resolved : ResolvedGrammar L) (input : L.Input) : Machine L :=
  resolved.grammar.machine input

/-- The node of an operator does what the operator does with the nodes of its
operands. -/
theorem run_operator (resolved : ResolvedGrammar L) {expr : Expr L}
    (contained : resolved.builder.Contains expr) (isOperator : expr.clause.isReference = false)
    {compiled : Clause L PatternProgram (Expr L)}
    (isCompiled : expr.clause.compiled? = some compiled) (input : L.Input)
    (steps depth : Nat) (context : Context L) :
    (resolved.machine input).run (steps + 1) depth (resolved.node expr) context =
      (compiled.mapOperands resolved.node).run ((resolved.machine input).run steps 1) steps input
        resolved.grammar.writesState (resolved.node expr) context :=
  Machine.run_clause rfl (resolved.resolution.nodes_eq contained isOperator isCompiled) steps depth
    context

/-- In one grammar an expression does what another does in a second grammar,
with so many more steps, if all nodes that differ in the exchange only do with
those that are left. -/
def Mimics (left right : ResolvedGrammar L) (nodes : NodeId -> NodeId -> Prop) (old new : Expr L)
    (input : L.Input) (lag : Nat) : Prop :=
  forall steps fewer, (forall more, fewer ≤ more ->
      (Agreement.keyed left right nodes).Callers (left.Counterparts right old new)
        ((left.machine input).run steps 1) ((right.machine input).run more 1)) ->
    forall more, fewer + lag ≤ more -> forall first second,
      (Agreement.keyed left right nodes).contexts first second ->
      ((left.machine input).run (steps + 1) 1 (left.node old) first).Follows
        (Agreement.keyed left right nodes)
        ((right.machine input).run more 1 (right.node new) second)

end ResolvedGrammar

/-- Two resolved grammars of which one has `new` where the other has `old`.
Counterparts have numbers that count as the same, and functions around the
exchange do not tell them apart. -/
structure Exchange (left right : ResolvedGrammar L) (old new : Expr L)
    (nodes : NodeId -> NodeId -> Prop) : Prop where
  builders : left.builder.Exchanges right.builder old new
  counterparts : forall id id', left.Counterparts right old new id id' -> nodes id id'
  respects : forall expr other, left.builder.Contains expr -> right.builder.Contains other ->
    expr.clause.Corresponds Eq (Expr.Exchanged old new) other.clause ->
    expr.clause.Respects nodes

namespace Exchange

variable {left right : ResolvedGrammar L} {old new : Expr L} {nodes : NodeId -> NodeId -> Prop}

theorem flip (exchange : Exchange left right old new nodes) :
    Exchange right left new old fun id id' => nodes id' id where
  builders := exchange.builders.flip
  counterparts id id' counterparts := exchange.counterparts id' id counterparts.flip
  respects := by
    intro expr other contained contained' corresponds
    have undone : expr.clause.Corresponds Eq (fun operand operand' =>
        Expr.Exchanged old new operand' operand) other.clause :=
      corresponds.imp fun _ _ _ exchanged => exchanged.flip
    have own := exchange.respects other expr contained' contained undone.flip
    exact (undone.flip.respects own).flip

/-- Whether a repetition has to keep the state is the same for counterparts. -/
theorem writesState_eq (exchange : Exchange left right old new nodes) {id id' : NodeId}
    (counterparts : left.Counterparts right old new id id') :
    left.grammar.writesState id = right.grammar.writesState id' := by
  cases counterparts with
  | intro contained contained' exchanged =>
      rw [Bool.eq_iff_iff, <- left.resolution.writes_iff contained,
        <- right.resolution.writes_iff contained']
      exact exchange.builders.writes_iff exchanged

/-- An expression around the exchange does what its counterpart does, if
counterparts do with the steps that are left. -/
theorem kept_follows (exchange : Exchange left right old new nodes) {key : Nat}
    {clause clause' : Clause L Unit (Expr L)} (contained : left.builder.Contains (.node key clause))
    (contained' : right.builder.Contains (.node key clause'))
    (isOperator : clause.isReference = false)
    (corresponds : clause.Corresponds Eq (Expr.Exchanged old new) clause') {input : L.Input}
    {steps more : Nat} (enough : steps ≤ more)
    (callers : (Agreement.keyed left right nodes).Callers (left.Counterparts right old new)
      ((left.machine input).run steps 1) ((right.machine input).run more 1))
    {depth depth' : Nat} {first second : Context L}
    (same : (Agreement.keyed left right nodes).contexts first second) :
    ((left.machine input).run (steps + 1) depth (left.node (.node key clause)) first).Follows
      (Agreement.keyed left right nodes)
      ((right.machine input).run (more + 1) depth' (right.node (.node key clause')) second) := by
  have isOperator' : clause'.isReference = false := by
    rw [<- corresponds.isReference_eq, isOperator]
  rcases left.resolution.clause _ contained isOperator with ⟨compiled, _, isCompiled, _, _⟩
  rcases right.resolution.clause _ contained' isOperator' with ⟨compiled', _, isCompiled', _, _⟩
  rw [left.run_operator contained isOperator isCompiled,
    right.run_operator contained' isOperator' isCompiled']
  have lowered := corresponds.lowered isCompiled isCompiled'
  -- The operands are within the rules of their own grammar on both sides.
  have inside : compiled.Corresponds Eq (fun child child' =>
      left.Counterparts right old new (left.node child) (right.node child')) compiled' := by
    have half : compiled.Corresponds Eq (fun child child' =>
        left.builder.Contains child ∧ Expr.Exchanged old new child child') compiled' := by
      apply lowered.imp
      intro child child' isChild exchanged
      rw [Clause.children_compiled isCompiled] at isChild
      exact ⟨left.builder.contains_operandClosed _ child contained isChild, exchanged⟩
    have other : compiled'.Corresponds Eq (fun child' child =>
        left.Counterparts right old new (left.node child) (right.node child')) compiled := by
      apply half.flip.imp
      intro child' child isChild' related
      rw [Clause.children_compiled isCompiled'] at isChild'
      exact .intro related.1 (right.builder.contains_operandClosed _ child' contained' isChild')
        related.2
    exact other.flip
  have twins : left.Twins right (.node key clause) (.node key clause') :=
    ⟨⟨contained, isOperator⟩, ⟨contained', isOperator'⟩, rfl⟩
  have sameNode := exchange.counterparts _ _ (.intro contained contained' (.kept corresponds))
  have respects := exchange.respects _ _ contained contained' corresponds
  have compiledRespects := (Clause.corresponds_compiled isCompiled).respects respects
  have bears : (Agreement.keyed left right nodes).Bears (left.node (.node key clause))
      (right.node (.node key clause')) (compiled.mapOperands left.node) := by
    apply Agreement.keyed_bears twins sameNode
    cases compiled with
    | map inner transform => exact compiledRespects
    | update inner next => exact compiledRespects
    | _ => trivial
  exact Agreement.clause_follows callers sameNode enough input
    (fun _ _ counterparts => exchange.writesState_eq counterparts) inside.images bears same

/-- If one expression mimics another, then so does every expression of the
grammar its counterpart. -/
theorem run_follows (exchange : Exchange left right old new nodes) {input : L.Input} {lag : Nat}
    (positive : 0 < lag)
    (mimics : left.builder.Contains old -> right.builder.Contains new ->
      left.Mimics right nodes old new input lag)
    {steps more depth depth' : Nat} (enough : steps * lag ≤ more) {expr other : Expr L}
    (contained : left.builder.Contains expr) (contained' : right.builder.Contains other)
    (exchanged : Expr.Exchanged old new expr other) {first second : Context L}
    (same : (Agreement.keyed left right nodes).contexts first second) :
    ((left.machine input).run steps depth (left.node expr) first).Follows
      (Agreement.keyed left right nodes)
      ((right.machine input).run more depth' (right.node other) second) := by
  induction steps generalizing more depth depth' expr other first second with
  | zero => exact .exhausted
  | succ steps inductionHypothesis =>
      rw [Nat.succ_mul] at enough
      have callers : forall fewer, steps * lag ≤ fewer ->
          (Agreement.keyed left right nodes).Callers (left.Counterparts right old new)
            ((left.machine input).run steps 1) ((right.machine input).run fewer 1) := by
        intro fewer isEnough _ _ counterparts before before' agree
        cases counterparts with
        | intro operand operand' related =>
            exact inductionHypothesis isEnough operand operand' related agree
      -- References lead to operators, which are counterparts again.
      rcases left.resolution.leads expr contained with ⟨length, last, _, leads⟩
      rcases exchange.builders.leads leads exchanged with ⟨last', leads', ends⟩
      have lastContained := leads.contains contained
      have lastContained' := leads'.contains contained'
      rw [left.resolution.node_leads leads contained,
        right.resolution.node_leads leads' contained']
      cases ends with
      | swapped =>
          rw [Machine.run_depth rfl _ depth 1, Machine.run_depth rfl _ depth' 1]
          exact mimics lastContained lastContained' steps (steps * lag) callers more enough first
            second same
      | kept corresponds =>
          rcases Nat.exists_eq_add_one_of_ne_zero (Nat.ne_zero_of_lt
            (Nat.lt_of_lt_of_le positive (Nat.le_trans (Nat.le_add_left ..) enough)))
            with ⟨fewer, rfl⟩
          have left : steps * lag ≤ fewer := by omega
          exact exchange.kept_follows lastContained lastContained' leads.operator corresponds
            (Nat.le_trans (Nat.le_mul_of_pos_right steps positive) left) (callers fewer left) same

end Exchange

/-! ## Parses from any position -/

/-- The same outcome of a parse, up to numbers of nodes that count as the same.
A parse that is out of steps is like no other. -/
inductive ParseRun.SameUpTo {type : ValueType L.Kind} (nodes : NodeId -> NodeId -> Prop) :
    ParseRun L type -> ParseRun L type -> Prop where
  | completed {result result' : ParseResult L type} :
      AnswersAlike nodes result.result result'.result -> result.consumed = result'.consumed ->
      result.state = result'.state -> SameUpTo nodes (.completed result) (.completed result')
  | faulted {fault fault' : Fault} : fault.Alike nodes fault' ->
      SameUpTo nodes (.faulted fault) (.faulted fault')

theorem ParseRun.SameUpTo.flip {type : ValueType L.Kind} {nodes : NodeId -> NodeId -> Prop}
    {run other : ParseRun L type} (same : run.SameUpTo nodes other) :
    other.SameUpTo (fun id id' => nodes id' id) run := by
  cases same with
  | completed answers sameConsumed sameState =>
      exact .completed answers.flip sameConsumed.symm sameState.symm
  | faulted alike => exact .faulted alike.flip

theorem ParseRun.SameUpTo.eq_of_ok {type : ValueType L.Kind} {nodes : NodeId -> NodeId -> Prop}
    {content : type.Carrier L} {consumed : Nat} {state : L.State} {other : ParseRun L type}
    (same : (ParseRun.completed ⟨.ok content, consumed, state⟩).SameUpTo nodes other) :
    other = .completed ⟨.ok content, consumed, state⟩ := by
  cases same with
  | @completed _ result' answers sameConsumed sameState =>
      rcases result' with ⟨answer, consumed', state'⟩
      have sameConsumed : consumed = consumed' := sameConsumed
      subst sameConsumed
      have sameState : state = state' := sameState
      subst sameState
      cases answers with
      | ok _ => rfl

namespace EntryPoint

variable {type : ValueType L.Kind}

/-- What a parse comes to that starts at a position. -/
def parseFrom (entry : EntryPoint L type) (steps : Nat) (input : L.Input) (position : Nat)
    (state : L.State) : ParseRun L type :=
  if 0 < entry.config.maxInputSize ∧ entry.config.maxInputSize < Stream.length input then
    .completed ⟨.error (tooLarge (Stream.length input) entry.config.maxInputSize), 0, state⟩
  else
    conclude entry.root ((entry.machine input).run steps 1 entry.root
      ⟨position, state, (0, 0), SeedTable.empty⟩)

/-- A parse starts at position zero. -/
theorem parseFrom_zero (entry : EntryPoint L type) (steps : Nat) (input : L.Input)
    (state : L.State) : entry.parseFrom steps input 0 state = entry.parseWithin steps input state := by
  by_cases refuses : entry.Refuses input
  · rw [parseWithin_of_refuses refuses]
    exact if_pos refuses
  · rw [parseWithin_of_accepts refuses]
    exact if_neg refuses

/-- Whether two entry points parse alike from every position in every state: one
comes to an outcome if the other does, and then to the same. -/
structure ParsesAlike (nodes : NodeId -> NodeId -> Prop) (entry other : EntryPoint L type) :
    Prop where
  forth : forall input position state steps,
    entry.parseFrom steps input position state ≠ .exhausted ->
    exists enough, forall more, enough ≤ more ->
      (entry.parseFrom steps input position state).SameUpTo nodes
        (other.parseFrom more input position state)
  back : forall input position state steps,
    other.parseFrom steps input position state ≠ .exhausted ->
    exists enough, forall more, enough ≤ more ->
      (entry.parseFrom more input position state).SameUpTo nodes
        (other.parseFrom steps input position state)

theorem ParsesAlike.parseWithin {nodes : NodeId -> NodeId -> Prop} {entry other : EntryPoint L type}
    (alike : entry.ParsesAlike nodes other) {steps : Nat} {input : L.Input} {state : L.State}
    (ends : entry.parseWithin steps input state ≠ .exhausted) :
    exists enough, forall more, enough ≤ more ->
      (entry.parseWithin steps input state).SameUpTo nodes
        (other.parseWithin more input state) := by
  simp only [<- parseFrom_zero] at ends ⊢
  exact alike.forth input 0 state steps ends

/-- Roots that follow each other make for outcomes that are the same. -/
theorem conclude_sameUpTo {agreement : Agreement L} {reply other : Reply L (Outcome L)}
    (follows : reply.Follows agreement other) {root root' : NodeId}
    (roots : agreement.nodes root root')
    (ends : (conclude root reply : ParseRun L type) ≠ .exhausted) :
    (conclude root reply : ParseRun L type).SameUpTo agreement.nodes (conclude root' other) := by
  cases follows with
  | finished alike same =>
      cases alike with
      | ok value =>
          rw [conclude, conclude]
          cases value.get? type with
          | some content => exact .completed (.ok content) (agreement.position same) (agreement.state same)
          | none => exact .faulted (.wrongType roots)
      | error alike =>
          exact .completed (.error alike) (agreement.position same) (agreement.state same)
  | halted alike same =>
      exact .completed (.error alike) (agreement.position same) (agreement.state same)
  | faulted alike => exact .faulted alike
  | exhausted => exact absurd rfl ends

end EntryPoint

/-- Contexts without seeds are the same under all keys. -/
theorem Agreement.keyed_fresh (left right : ResolvedGrammar L) (nodes : NodeId -> NodeId -> Prop)
    (position : Nat) (state : L.State) :
    (keyed left right nodes).contexts ⟨position, state, (0, 0), SeedTable.empty⟩
      ⟨position, state, (0, 0), SeedTable.empty⟩ :=
  ⟨rfl, rfl, fun _ _ _ _ => .none⟩

namespace Exchange

variable {left right : ResolvedGrammar L} {old new : Expr L} {nodes : NodeId -> NodeId -> Prop}

/-- If two expressions mimic each other, each rule parses alike with the one and
with the other. -/
theorem parses_alike (exchange : Exchange left right old new nodes) {lag : Nat}
    (positive : 0 < lag)
    (mimics : left.builder.Contains old -> right.builder.Contains new ->
      forall input, left.Mimics right nodes old new input lag)
    (mimics' : right.builder.Contains new -> left.builder.Contains old ->
      forall input, right.Mimics left (fun id id' => nodes id' id) new old input lag)
    {definition : Definition L} (member : definition ∈ left.builder.definitions) :
    exists entry other, left.grammar.entryPoint definition.type definition.name = .ok entry ∧
      right.grammar.entryPoint definition.type definition.name = .ok other ∧
      entry.ParsesAlike nodes other := by
  rcases exchange.builders.counterpart member with ⟨definition', member', exchanged⟩
  have contained := GrammarBuilder.contains_root member
  have contained' := GrammarBuilder.contains_root member'
  have roots := exchange.counterparts _ _ (.intro contained contained' exchanged.expr)
  refine ⟨⟨left.grammar, left.node definition.parser.expr, .unlimited⟩,
    ⟨right.grammar, right.node definition'.parser.expr, .unlimited⟩, ?_, ?_, ?_⟩
  · rw [Grammar.entryPoint, left.resolution.rule definition member]
    exact if_pos rfl
  · rw [Grammar.entryPoint, exchanged.name, right.resolution.rule definition' member']
    exact if_pos exchanged.type.symm
  · constructor
    · intro input position state steps ends
      refine ⟨steps * lag, ?_⟩
      intro more enough
      exact EntryPoint.conclude_sameUpTo (exchange.run_follows positive
        (fun isOld isNew => mimics isOld isNew input) enough contained contained' exchanged.expr
        (Agreement.keyed_fresh left right nodes position state)) roots ends
    · intro input position state steps ends
      refine ⟨steps * lag, ?_⟩
      intro more enough
      have fresh := Agreement.keyed_fresh right left (fun id id' => nodes id' id) position state
      exact (EntryPoint.conclude_sameUpTo (exchange.flip.run_follows positive
        (fun isNew isOld => mimics' isNew isOld input) enough contained' contained
        exchanged.expr.flip fresh) roots ends).flip

end Exchange
end SeedGrammar
