import SeedGrammar.Proofs.Engine.Exchange

namespace SeedGrammar

/-!
# Chains of functions

A function that is applied to a parser becomes a node, and a function that is
applied to such a parser is composed with it.  A chain of functions is one node
for that reason, where it could be as many nodes as there are functions, each
over the one before.

The difference shows nowhere but in numbers of nodes.  All nodes of the chain
start and end at the same places and in the same states, so each of their
functions sees the same match; the range that the last of them leaves is the one
that the single node leaves; and an outcome goes from function to function in
either case, whether it is a value or a failure.  Only the number that a function
sees, and that a rejection gets, is that of the function's own node in one case
and that of the single node in the other.

If the parser at the start of the chain has been made by a function already, it
is part of the chain.
-/

variable {L : Signature}

/-! ## Calls -/

/-- A call that applies a function to a parser. -/
inductive MapCall (L : Signature) : ValueType L.Kind -> ValueType L.Kind -> Type where
  | map {source target : ValueType L.Kind}
      (f : source.Carrier L -> Token L -> target.Carrier L) : MapCall L source target
  | mapChecked {source target : ValueType L.Kind}
      (f : source.Carrier L -> Token L -> Except L.Payload (target.Carrier L)) :
      MapCall L source target
  | mapOutcome {source target : ValueType L.Kind}
      (f : Except (ParseError L.Payload) (source.Carrier L) -> Token L ->
        Except (ParseError L.Payload) (target.Carrier L)) : MapCall L source target
  | mapPayload {type : ValueType L.Kind} (f : L.Payload -> L.Payload) : MapCall L type type
  | slice {source : ValueType L.Kind} : MapCall L source .text

namespace MapCall

variable {source target : ValueType L.Kind}

/-- The call as it is made on a parser. -/
def apply : {source target : ValueType L.Kind} -> MapCall L source target -> Parser L source ->
    Construction (Parser L target)
  | _, _, map f, parser => parser.map f
  | _, _, mapChecked f, parser => parser.mapChecked f
  | _, _, mapOutcome f, parser => parser.mapOutcome f
  | _, _, mapPayload f, parser => parser.mapPayload f
  | _, _, slice, parser => parser.slice

/-- What the call does with an outcome. -/
def function : {source target : ValueType L.Kind} -> MapCall L source target ->
    Except (ParseError L.Payload) (source.Carrier L) -> Token L ->
      Except (ParseError L.Payload) (target.Carrier L)
  | _, _, map f => fun result token => result.map (f · token)
  | _, _, mapChecked f => fun result token =>
    match result with
    | .error error => .error error
    | .ok content =>
      match f content token with
      | .ok content => .ok content
      | .error payload =>
        .error (((ParseError.bare token.start).withNode token.node).withPayload payload)
  | _, _, mapOutcome f => f
  | _, _, mapPayload f => fun result _ => result.mapError (·.mapPayload f)
  | _, _, slice => fun result token => result.map fun _ => token.span

theorem apply_eq (call : MapCall L source target) (parser : Parser L source) :
    call.apply parser = parser.mapOutcome call.function := by
  cases call <;> rfl

/-- The function of the call on outcomes of any type. -/
def transform (call : MapCall L source target) : Transform L :=
  Transform.ofTyped source target call.function

/-- The function of the call as a node of its own. -/
def wrap (call : MapCall L source target) (parser : Parser L source) :
    Construction (Parser L target) :=
  Parser.make (.map parser.expr call.transform) fun _ =>
    .map parser.typed (Transform.ofTyped_takes source target call.function)

end MapCall

/-- One call after the other. -/
inductive MapCalls (L : Signature) (source : ValueType L.Kind) : ValueType L.Kind -> Type where
  | single {target : ValueType L.Kind} (call : MapCall L source target) : MapCalls L source target
  | after {middle target : ValueType L.Kind} (calls : MapCalls L source middle)
      (call : MapCall L middle target) : MapCalls L source target

namespace MapCalls

variable {source : ValueType L.Kind}

/-- The calls as they are made on a parser. -/
def fused (parser : Parser L source) : {target : ValueType L.Kind} -> MapCalls L source target ->
    Construction (Parser L target)
  | _, single call => call.apply parser
  | _, after calls call => do
    let parser ← calls.fused parser
    call.apply parser

/-- The calls with a node for each. -/
def nested (parser : Parser L source) : {target : ValueType L.Kind} -> MapCalls L source target ->
    Construction (Parser L target)
  | _, single call => call.wrap parser
  | _, after calls call => do
    let parser ← calls.nested parser
    call.wrap parser

end MapCalls

/-! ## Layers of functions -/

namespace Expr

/-- What a function is applied to, if the expression is one. -/
def base : Expr L -> Expr L
  | .node _ (.map inner _) => inner
  | expr => expr

/-- The expression itself, if it is a function of another. -/
def ownLayer : Expr L -> List (Expr L)
  | .node key (.map inner transform) => [.node key (.map inner transform)]
  | _ => []

/-- Functions over functions over a base, with what they come to together and
the expressions of all of them. -/
inductive Layered (base : Expr L) : Transform L -> List (Expr L) -> Expr L -> Prop where
  | single {key : Nat} {transform : Transform L} :
      Layered base transform [.node key (.map base transform)] (.node key (.map base transform))
  | above {key : Nat} {earlier transform : Transform L} {layers : List (Expr L)} {inner : Expr L} :
      Layered base earlier layers inner ->
      Layered base (earlier.andThen transform) (.node key (.map inner transform) :: layers)
        (.node key (.map inner transform))

end Expr

/-- The expressions of a chain with a node for each call. -/
def MapCalls.layers {source : ValueType L.Kind} (parser : Parser L source) (next : Nat) :
    {target : ValueType L.Kind} -> MapCalls L source target -> List (Expr L)
  | _, single call => (call.wrap parser next).1.expr :: parser.expr.ownLayer
  | _, after calls call =>
    ((after calls call).nested parser next).1.expr :: calls.layers parser next

/-- The nodes of a chain are layers over the base of the parser, and the fused
node applies to that base what the layers come to. -/
theorem MapCalls.layered {source target : ValueType L.Kind} (calls : MapCalls L source target)
    (parser : Parser L source) (next : Nat) : exists transform key,
      Expr.Layered parser.expr.base transform (calls.layers parser next)
        (calls.nested parser next).1.expr ∧
      (calls.fused parser next).1.expr = .node key (.map parser.expr.base transform) := by
  induction calls with
  | single call =>
      simp only [nested, fused, layers, MapCall.apply_eq]
      rcases parser with ⟨⟨key, clause⟩, typed⟩
      cases clause with
      | map inner earlier => exact ⟨earlier.andThen call.transform, next, .above .single, rfl⟩
      | _ => exact ⟨call.transform, next, .single, rfl⟩
  | after calls call inductionHypothesis =>
      rcases inductionHypothesis with ⟨transform, key, layered, isFused⟩
      have isNested : ((after calls call).nested parser next).1.expr =
          .node (calls.nested parser next).2
            (.map (calls.nested parser next).1.expr call.transform) := by
        rw [nested]
        rfl
      refine ⟨transform.andThen call.transform, (calls.fused parser next).2, ?_, ?_⟩
      · rw [layers, isNested]
        exact .above layered
      · have applied : ((after calls call).fused parser next).1.expr =
            .node (calls.fused parser next).2
              ((calls.fused parser next).1.expr.transformed call.transform) := by
          rw [fused]
          change (call.apply (calls.fused parser next).1 (calls.fused parser next).2).1.expr = _
          rw [MapCall.apply_eq]
          rfl
        rw [applied, isFused]
        rfl

/-- Functions that tell no numbers apart tell none apart one after the other. -/
theorem Transform.Respects.andThen {nodes : NodeId -> NodeId -> Prop} {first second : Transform L}
    (respects : first.Respects nodes) (respects' : second.Respects nodes) :
    (first.andThen second).Respects nodes := by
  intro outcome outcome' input range state id id' same alike
  have results := respects outcome outcome' input range state id id' same alike
  simp only [Transform.andThen]
  generalize first outcome _ = result at results ⊢
  generalize first outcome' _ = result' at results ⊢
  cases results with
  | ok alike => exact respects' _ _ input range state id id' same alike
  | error alike => exact .error alike

/-- A typed function tells no numbers apart if it takes outcomes that are alike to
outcomes that are. -/
theorem Transform.ofTyped_respects {nodes : NodeId -> NodeId -> Prop}
    {source target : ValueType L.Kind}
    {f : Except (ParseError L.Payload) (source.Carrier L) -> Token L ->
      Except (ParseError L.Payload) (target.Carrier L)}
    (respects : forall result result' input range state id id', nodes id id' ->
      AnswersAlike nodes result result' ->
      AnswersAlike nodes (f result ⟨input, range, state, id⟩) (f result' ⟨input, range, state, id'⟩)) :
    (Transform.ofTyped source target f).Respects nodes := by
  intro outcome outcome' input range state id id' same alike
  cases alike with
  | error alike =>
      have results := respects _ _ input range state id id' same (.error alike)
      exact .ok (results.map _)
  | ok value =>
      simp only [Transform.ofTyped]
      cases value.get? source with
      | none => exact .error (.wrongType same)
      | some content =>
          have results := respects _ _ input range state id id' same (.ok content)
          exact .ok (results.map _)

/-! ## Running layers -/

/-- What follows an outcome at a node that applies a function to it. -/
def finishMap (transform : Transform L) (input : L.Input) (self : NodeId) (start : Nat)
    (outcome : Outcome L) (after : Context L) : Reply L (Outcome L) :=
  let after := { after with range := (start, after.position) }
  match transform outcome (after.token input self) with
  | .ok outcome => .finished outcome after
  | .error fault => .faulted fault

/-- Two functions in a row see the same match, and leave the same range. -/
theorem finishMap_andThen (first second : Transform L) (input : L.Input) (self : NodeId)
    (start : Nat) (outcome : Outcome L) (after : Context L) :
    finishMap (first.andThen second) input self start outcome after =
      (finishMap first input self start outcome after).andThen
        (finishMap second input self start) := by
  simp only [finishMap, Transform.andThen]
  cases first outcome _ with
  | ok outcome => rfl
  | error fault => rfl

theorem andThen_finishMap (reply : Reply L (Outcome L)) (first second : Transform L)
    (input : L.Input) (self : NodeId) (start : Nat) :
    reply.andThen (finishMap (first.andThen second) input self start) =
      (reply.andThen (finishMap first input self start)).andThen
        (finishMap second input self start) := by
  rw [Reply.andThen_assoc]
  congr 1
  funext outcome after
  exact finishMap_andThen first second input self start outcome after

theorem finishMap_follows {agreement : Agreement L} {transform : Transform L}
    (respects : transform.Respects agreement.nodes) {self self' : NodeId}
    (same : agreement.nodes self self') (input : L.Input) (start : Nat)
    {outcome outcome' : Outcome L} (alike : AnswersAlike agreement.nodes outcome outcome')
    {after after' : Context L} (past : agreement.contexts after after') :
    (finishMap transform input self start outcome after).Follows agreement
      (finishMap transform input self' start outcome' after') := by
  have ranged := agreement.ranged past (start, after'.position)
  have results := respects outcome outcome' input (start, after'.position) after'.state _ _ same
    alike
  simp only [finishMap, Context.token, agreement.position past, agreement.state past]
  generalize transform outcome _ = result at results ⊢
  generalize transform outcome' _ = result' at results ⊢
  cases results with
  | ok alike =>
      have moved := agreement.moved ranged after'.position after'.state
      rw [<- agreement.state past] at moved ⊢
      exact .finished alike moved
  | error alike => exact .faulted alike

namespace ResolvedGrammar

/-- The node of a function runs the node of its operand first. -/
theorem run_map {resolved : ResolvedGrammar L} {key : Nat} {inner : Expr L}
    {transform : Transform L} (contained : resolved.builder.Contains (.node key (.map inner transform)))
    (input : L.Input) (steps depth : Nat) (context : Context L) :
    (resolved.machine input).run (steps + 1) depth
        (resolved.node (.node key (.map inner transform))) context =
      ((resolved.machine input).run steps 1 (resolved.node inner) context).andThen
        (finishMap transform input (resolved.node (.node key (.map inner transform)))
          context.position) :=
  resolved.run_operator contained rfl rfl input steps depth context

end ResolvedGrammar

namespace Expr.Layered

variable {base expr : Expr L} {transform : Transform L} {layers : List (Expr L)}

/-- The base is within the outermost layer. -/
theorem within (layered : Layered base transform layers expr) : base.Within expr := by
  induction layered with
  | single => exact Expr.within_of_mem_children (List.mem_singleton.mpr rfl)
  | above _ inductionHypothesis => exact .operand (List.mem_singleton.mpr rfl) inductionHypothesis

theorem isOperator (layered : Layered base transform layers expr) :
    expr.clause.isReference = false := by
  cases layered <;> rfl

theorem layers_pos (layered : Layered base transform layers expr) : 0 < layers.length := by
  cases layered <;> exact Nat.succ_pos _

theorem writes_map {among : GrammarBuilder L} {key : Nat} {inner : Expr L}
    {transform : Transform L} :
    among.Writes (.node key (.map inner transform)) ↔ among.Writes inner := by
  constructor
  · intro writes
    cases writes with
    | update isUpdate => cases isUpdate
    | operand isChild writes => rwa [List.mem_singleton.mp isChild] at writes
    | reference isReference => cases isReference
  · intro writes
    exact .operand (List.mem_singleton.mpr rfl) writes

theorem writes_iff (layered : Layered base transform layers expr) (among : GrammarBuilder L) :
    among.Writes expr ↔ among.Writes base := by
  induction layered with
  | single => exact writes_map
  | above _ inductionHypothesis => rw [writes_map, inductionHypothesis]

/-- What layers come to together tells numbers apart only if one of them does. -/
theorem respects (layered : Layered base transform layers expr)
    {nodes : NodeId -> NodeId -> Prop}
    (each : forall layer, layer ∈ layers -> layer.clause.Respects nodes) :
    transform.Respects nodes := by
  induction layered with
  | single => exact each _ (List.mem_singleton.mpr rfl)
  | above _ inductionHypothesis =>
      apply Transform.Respects.andThen
      · exact inductionHypothesis fun layer member => each layer (List.mem_cons_of_mem _ member)
      · exact each _ (List.mem_cons_self ..)

/-- All layers are within the outermost one. -/
theorem layer_within (layered : Layered base transform layers expr) {layer : Expr L}
    (member : layer ∈ layers) : layer.Within expr := by
  induction layered with
  | single =>
      rw [List.mem_singleton.mp member]
      exact .self _
  | above _ inductionHypothesis =>
      rcases List.mem_cons.mp member with own | inner
      · rw [own]
        exact .self _
      · exact .operand (List.mem_singleton.mpr rfl) (inductionHypothesis inner)

variable {resolved : ResolvedGrammar L} {input : L.Input} {agreement : Agreement L}
  {self : NodeId}

/-- Layers are followed by what follows their base, continued with what they
come to together. -/
theorem run_follows (layered : Layered base transform layers expr)
    (contained : resolved.builder.Contains expr)
    (respects : forall layer, layer ∈ layers -> layer.clause.Respects agreement.nodes)
    (same : forall layer, layer ∈ layers -> agreement.nodes (resolved.node layer) self)
    {steps depth : Nat} {context : Context L} {other : Reply L (Outcome L)}
    (follows : ((resolved.machine input).run steps 1 (resolved.node base) context).Follows
      agreement other) :
    ((resolved.machine input).run (steps + 1) depth (resolved.node expr) context).Follows agreement
      (other.andThen (finishMap transform input self context.position)) := by
  induction layered generalizing steps depth with
  | single =>
      rw [ResolvedGrammar.run_map contained]
      apply follows.andThen
      intro outcome outcome' after after' alike past
      exact finishMap_follows (respects _ (List.mem_singleton.mpr rfl))
        (same _ (List.mem_singleton.mpr rfl)) input context.position alike past
  | @above key earlier transform layers inner _ inductionHypothesis =>
      rw [ResolvedGrammar.run_map contained]
      cases steps with
      | zero => exact .exhausted
      | succ steps =>
          have inside := resolved.builder.contains_operandClosed _ inner contained
            (List.mem_singleton.mpr rfl)
          rw [andThen_finishMap]
          refine (inductionHypothesis inside ?_ ?_ ?_).andThen ?_
          · exact fun layer member => respects layer (List.mem_cons_of_mem _ member)
          · exact fun layer member => same layer (List.mem_cons_of_mem _ member)
          · exact Machine.run_follows_of_more (Nat.le_succ steps) follows
          · intro outcome outcome' after after' alike past
            exact finishMap_follows (respects _ (List.mem_cons_self ..))
              (same _ (List.mem_cons_self ..)) input context.position alike past

/-- What is followed by the base is followed by the layers, if it is continued
with what they come to together. -/
theorem follows_run (layered : Layered base transform layers expr)
    (contained : resolved.builder.Contains expr)
    (respects : forall layer, layer ∈ layers -> layer.clause.Respects agreement.nodes)
    (same : forall layer, layer ∈ layers -> agreement.nodes self (resolved.node layer))
    {fewer more depth : Nat} (enough : fewer + layers.length ≤ more) {context : Context L}
    {reply : Reply L (Outcome L)}
    (follows : forall more, fewer ≤ more -> reply.Follows agreement
      ((resolved.machine input).run more 1 (resolved.node base) context)) :
    (reply.andThen (finishMap transform input self context.position)).Follows agreement
      ((resolved.machine input).run more depth (resolved.node expr) context) := by
  induction layered generalizing more depth with
  | single =>
      rcases Nat.exists_eq_add_one_of_ne_zero (Nat.ne_zero_of_lt enough) with ⟨more, rfl⟩
      rw [ResolvedGrammar.run_map contained]
      apply (follows more (Nat.le_of_succ_le_succ enough)).andThen
      intro outcome outcome' after after' alike past
      exact finishMap_follows (respects _ (List.mem_singleton.mpr rfl))
        (same _ (List.mem_singleton.mpr rfl)) input context.position alike past
  | @above key earlier transform layers inner _ inductionHypothesis =>
      rw [List.length_cons] at enough
      rcases Nat.exists_eq_add_one_of_ne_zero (Nat.ne_zero_of_lt enough) with ⟨more, rfl⟩
      rw [ResolvedGrammar.run_map contained]
      have inside := resolved.builder.contains_operandClosed _ inner contained
        (List.mem_singleton.mpr rfl)
      rw [andThen_finishMap]
      refine (inductionHypothesis inside ?_ ?_ (Nat.le_of_succ_le_succ enough)).andThen ?_
      · exact fun layer member => respects layer (List.mem_cons_of_mem _ member)
      · exact fun layer member => same layer (List.mem_cons_of_mem _ member)
      · intro outcome outcome' after after' alike past
        exact finishMap_follows (respects _ (List.mem_cons_self ..))
          (same _ (List.mem_cons_self ..)) input context.position alike past

end Expr.Layered

/-! ## Fusion -/

namespace Expr.Layered

variable {left right : ResolvedGrammar L} {nodes : NodeId -> NodeId -> Prop} {base expr : Expr L}
  {transform : Transform L} {layers : List (Expr L)} {key : Nat}

/-- The base of layers has a counterpart where there is one node in their
place. -/
theorem base_counterparts (layered : Layered base transform layers expr)
    (contained : left.builder.Contains expr)
    (contained' : right.builder.Contains (.node key (.map base transform))) :
    left.Counterparts right expr (.node key (.map base transform)) (left.node base)
      (right.node base) :=
  .intro (left.builder.contains_operandClosed.within layered.within contained)
    (right.builder.contains_operandClosed _ base contained' (List.mem_singleton.mpr rfl))
    (.refl _ _ base)

variable (layered : Layered base transform layers expr) (contained : left.builder.Contains expr)
  (contained' : right.builder.Contains (.node key (.map base transform)))
  (respects : forall layer, layer ∈ layers -> layer.clause.Respects nodes)
  (same : forall layer, layer ∈ layers ->
    nodes (left.node layer) (right.node (.node key (.map base transform))))
include layered contained contained' respects same

/-- Layers do what one node does that applies what they come to together. -/
theorem mimics_fused (input : L.Input) :
    left.Mimics right nodes expr (.node key (.map base transform)) input layers.length := by
  intro steps fewer callers more enough first second agree
  have positive := layered.layers_pos
  rcases Nat.exists_eq_add_one_of_ne_zero (Nat.ne_zero_of_lt
    (Nat.lt_of_lt_of_le (Nat.lt_add_of_pos_right positive) enough)) with ⟨more, rfl⟩
  have bases := callers more (by omega) _ _ (layered.base_counterparts contained contained') first
    second agree
  rw [ResolvedGrammar.run_map contained', <- (Agreement.keyed left right nodes).position agree]
  exact layered.run_follows contained respects same bases

/-- One node does what layers do that come to the same together, with as many
more steps as there are layers. -/
theorem fused_mimics (input : L.Input) :
    right.Mimics left (fun id id' => nodes id' id) (.node key (.map base transform)) expr input
      layers.length := by
  intro steps fewer callers more enough first second agree
  have counterparts := (layered.base_counterparts contained contained').flip
  rw [ResolvedGrammar.run_map contained',
    (Agreement.keyed right left fun id id' => nodes id' id).position agree]
  exact layered.follows_run contained (fun layer isLayer => (respects layer isLayer).flip) same enough
    fun more isMore => callers more isMore _ _ counterparts first second agree

end Expr.Layered

namespace MapCalls

variable {source target : ValueType L.Kind}

/-- Numbers that count as the same when a chain has become one node: those of
expressions that differ in the exchange only, and those of the chain with that of
the one node. -/
inductive Identifies (calls : MapCalls L source target) (parser : Parser L source) (next : Nat)
    (left right : ResolvedGrammar L) : NodeId -> NodeId -> Prop where
  | counterparts {id id' : NodeId} :
      left.Counterparts right (calls.nested parser next).1.expr (calls.fused parser next).1.expr
        id id' -> Identifies calls parser next left right id id'
  | layer {layer : Expr L} : layer ∈ calls.layers parser next ->
      Identifies calls parser next left right (left.node layer)
        (right.node (calls.fused parser next).1.expr)

/-- That a chain of functions is one node is not observable.  Take a grammar that
is built with a node for each function in some places, and the grammar that is
built with one node there.  Every rule parses alike from every position in every
state, up to numbers of nodes, if the nodes of the chain count as the one node and
the functions do not tell apart what counts as the same. -/
theorem fusion_unobservable (calls : MapCalls L source target) (parser : Parser L source)
    {next : Nat} {builder builder' : GrammarBuilder L}
    (rules : List.Forall₂ (Definition.Exchanged (calls.nested parser next).1.expr
      (calls.fused parser next).1.expr) builder.definitions builder'.definitions)
    {cache after cache' after' : PatternCache} {built built' : BuiltGrammar L}
    (sound : cache.Sound) (sound' : cache'.Sound)
    (coherent : Coherent builder.Contains) (coherent' : Coherent builder'.Contains)
    (accepted : builder.build cache = (.ok built, after))
    (accepted' : builder'.build cache' = (.ok built', after')) :
    exists left right : ResolvedGrammar L, left.builder = builder ∧
      left.grammar = built.grammar ∧ right.builder = builder' ∧ right.grammar = built'.grammar ∧
      forall nodes : NodeId -> NodeId -> Prop,
        (forall id id', calls.Identifies parser next left right id id' -> nodes id id') ->
        builder.Respects nodes -> forall definition, definition ∈ builder.definitions ->
        exists entry entry', built.grammar.entryPoint definition.type definition.name = .ok entry ∧
          built'.grammar.entryPoint definition.type definition.name = .ok entry' ∧
          entry.ParsesAlike nodes entry' := by
  rcases GrammarBuilder.build_resolved sound coherent accepted with ⟨left, rfl, isGrammar⟩
  rcases GrammarBuilder.build_resolved sound' coherent' accepted' with ⟨right, rfl, isGrammar'⟩
  refine ⟨left, right, rfl, isGrammar, rfl, isGrammar', ?_⟩
  rw [<- isGrammar, <- isGrammar']
  intro nodes identified respects definition member
  rcases calls.layered parser next with ⟨transform, key, layered, isFused⟩
  have operator : (calls.fused parser next).1.expr.clause.isReference = false := by
    rw [isFused]
    rfl
  have exchange : Exchange left right (calls.nested parser next).1.expr
      (calls.fused parser next).1.expr nodes :=
    { builders := ⟨rules, layered.isOperator, operator, fun among => by
        rw [layered.writes_iff, isFused, Expr.Layered.writes_map]⟩
      counterparts := fun id id' counterparts => identified id id' (.counterparts counterparts)
      respects := fun expr _ contained _ _ => respects expr contained }
  have chain : forall layer, layer ∈ calls.layers parser next ->
      nodes (left.node layer) (right.node (calls.fused parser next).1.expr) :=
    fun layer isLayer => identified _ _ (.layer isLayer)
  have each : left.builder.Contains (calls.nested parser next).1.expr ->
      forall layer, layer ∈ calls.layers parser next -> layer.clause.Respects nodes :=
    fun contained layer isLayer => respects layer
      (left.builder.contains_operandClosed.within (layered.layer_within isLayer) contained)
  refine exchange.parses_alike layered.layers_pos ?_ ?_ member
  · intro contained contained'
    rw [isFused] at contained' exchange chain ⊢
    exact layered.mimics_fused contained contained' (each contained) chain
  · intro contained' contained
    rw [isFused] at contained' exchange chain ⊢
    exact layered.fused_mimics contained contained' (each contained) chain

/-! ### Cries that are sliced after two other functions -/

/-- Cry. -/
def exclaim : MapCall plainText .text .text := .map fun (cry : String) _ => (cry ++ "!" : String)

/-- Say what was missing. -/
def complain : MapCall plainText .text .text :=
  .mapOutcome fun result _ => result.mapError (·.withMessage "no cry")

/-- A letter. -/
def cryLetter : Parser plainText .text := (Parser.exact "a" 0).1

/-- The two functions one after the other, and then only the text that was
matched. -/
def cryCalls : MapCalls plainText .text .text :=
  .after (.after (.single exclaim) complain) .slice

/-- Any number of cries. -/
def cries (cry : Parser plainText .text) : GrammarBuilder plainText :=
  ⟨[⟨"cries", .list .text, (cry.many 4).1⟩]⟩

theorem cries_coherent : Coherent (cries (cryCalls.nested cryLetter 1).1).Contains ∧
    Coherent (cries (cryCalls.fused cryLetter 1).1).Contains := by
  have letter : KeysBelow 1 [cryLetter.expr] := (KeysBelow.none 0).over _ (List.nil_subset _)
  have own : forall (root : Expr plainText) rest, [root] ⊆ root :: rest :=
    fun root rest => List.cons_subset.mpr ⟨List.mem_cons_self .., List.nil_subset _⟩
  constructor
  · have keys := letter.over (.map cryLetter.expr exclaim.transform) (own _ _)
    have keys := keys.over (.map _ complain.transform) (own _ _)
    have keys := keys.over (.map _ (MapCall.slice : MapCall plainText .text .text).transform) (own _ _)
    apply (keys.over (.repeated _ .text 0 none) (own _ _)).contains_coherent
    intro definition member
    rw [List.mem_singleton.mp member]
    exact List.mem_cons_self ..
  · have keys := (letter.raised (Nat.le_add_right 1 2)).over (.map cryLetter.expr
      ((exclaim.transform.andThen complain.transform).andThen
        (MapCall.slice : MapCall plainText .text .text).transform)) (own _ _)
    apply (keys.over (.repeated _ .text 0 none) (own _ _)).contains_coherent
    intro definition member
    rw [List.mem_singleton.mp member]
    exact List.mem_cons_self ..

/-- The three functions look at no numbers. -/
theorem cryCalls_respect {nodes : NodeId -> NodeId -> Prop} :
    exclaim.transform.Respects nodes ∧ complain.transform.Respects nodes ∧
      (MapCall.slice : MapCall plainText .text .text).transform.Respects nodes := by
  refine ⟨?_, ?_, ?_⟩
  · apply Transform.ofTyped_respects
    intro result result' input range state id id' _ alike
    exact alike.map _
  · apply Transform.ofTyped_respects
    intro result result' input range state id id' _ alike
    cases alike with
    | ok content => exact .ok content
    | error alike => exact .error ⟨alike.position, alike.node, rfl, alike.payload⟩
  · apply Transform.ofTyped_respects
    intro result result' input range state id id' _ alike
    exact alike.map _

theorem cries_respect (nodes : NodeId -> NodeId -> Prop) :
    (cries (cryCalls.nested cryLetter 1).1).Respects nodes := by
  rintro expr ⟨definition, member, within⟩
  rw [List.mem_singleton.mp member] at within
  cases within with
  | self => trivial
  | operand isChild within =>
      rw [List.mem_singleton.mp isChild] at within
      cases within with
      | self => exact cryCalls_respect.2.2
      | operand isChild within =>
          rw [List.mem_singleton.mp isChild] at within
          cases within with
          | self => exact cryCalls_respect.2.1
          | operand isChild within =>
              rw [List.mem_singleton.mp isChild] at within
              cases within with
              | self => exact cryCalls_respect.1
              | operand isChild within =>
                  rw [List.mem_singleton.mp isChild] at within
                  cases within with
                  | self => trivial
                  | operand isChild _ => cases isChild

/-- The nodes of the cries with a node for each function. -/
def cryGrammar : Grammar plainText :=
  ⟨[.leaf (.exact "a"), .map 0 exclaim.transform, .map 1 complain.transform,
      .map 2 (MapCall.slice : MapCall plainText .text .text).transform, .repeated 3 .text 0 none],
    [⟨"cries", .list .text, 4⟩]⟩

/-- The nodes of the cries with one node for the functions. -/
def fusedCryGrammar : Grammar plainText :=
  ⟨[.leaf (.exact "a"), .map 0 ((exclaim.transform.andThen complain.transform).andThen
      (MapCall.slice : MapCall plainText .text .text).transform), .repeated 1 .text 0 none],
    [⟨"cries", .list .text, 2⟩]⟩

theorem cries_accepted : exists known, (cries (cryCalls.nested cryLetter 1).1).build
    PatternCache.empty = (.ok ⟨cryGrammar, known⟩, PatternCache.empty) :=
  ⟨_, rfl⟩

theorem fusedCries_accepted : exists known, (cries (cryCalls.fused cryLetter 1).1).build
    PatternCache.empty = (.ok ⟨fusedCryGrammar, known⟩, PatternCache.empty) :=
  ⟨_, rfl⟩

/-- What the fused cries come to follows from what the others do. -/
theorem cries_alike : exists enough, forall more, enough ≤ more ->
    (⟨fusedCryGrammar, 2, .unlimited⟩ : EntryPoint plainText (.list .text)).parseWithin more "aab"
      () = .completed ⟨.ok ["a", "a"], 2, ()⟩ := by
  rcases cries_accepted with ⟨known, accepted⟩
  rcases fusedCries_accepted with ⟨known', accepted'⟩
  have rules : List.Forall₂ (Definition.Exchanged (cryCalls.nested cryLetter 1).1.expr
      (cryCalls.fused cryLetter 1).1.expr) (cries (cryCalls.nested cryLetter 1).1).definitions
      (cries (cryCalls.fused cryLetter 1).1).definitions :=
    .cons ⟨rfl, rfl, .kept (.repeated .swapped)⟩ .nil
  rcases fusion_unobservable cryCalls cryLetter rules PatternCache.empty_sound
    PatternCache.empty_sound cries_coherent.1 cries_coherent.2 accepted accepted' with
    ⟨left, right, _, _, _, _, alike⟩
  rcases alike _ (fun _ _ identified => identified) (cries_respect _) _
    (List.mem_singleton.mpr rfl) with ⟨entry, entry', isEntry, isEntry', alike⟩
  have sameEntry : ⟨cryGrammar, 4, .unlimited⟩ = entry := Except.ok.inj isEntry
  have sameEntry' : ⟨fusedCryGrammar, 2, .unlimited⟩ = entry' := Except.ok.inj isEntry'
  subst sameEntry sameEntry'
  have parses : (⟨cryGrammar, 4, .unlimited⟩ : EntryPoint plainText (.list .text)).parseWithin 12
      "aab" () = .completed ⟨.ok ["a", "a"], 2, ()⟩ := rfl
  rcases alike.parseWithin (EntryPoint.completed_ne_exhausted parses) with ⟨enough, same⟩
  refine ⟨enough, ?_⟩
  intro more isMore
  exact (parses ▸ same more isMore).eq_of_ok

end MapCalls
end SeedGrammar
