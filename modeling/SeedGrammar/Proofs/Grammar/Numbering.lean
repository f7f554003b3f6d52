import SeedGrammar.Proofs.Grammar.Resolution

namespace SeedGrammar

/-!
# How built grammars are numbered

Operands are lowered before the clause that they belong to, so they have
smaller numbers.  References are the exception, but a built grammar has no
operand that is a reference: it is replaced by the rule that it leads to.
Every edge of a built grammar therefore goes to a smaller number or to the
root of a rule, and every cycle passes the root of a rule.

This does not depend on what the keys of the expressions are.
-/

variable {L : Signature}

/-- Whether a clause can have a number: its operands have smaller ones.  A
literal is not empty in any case. -/
structure Clause.FitsAt (count : Nat) (clause : Clause L PatternProgram NodeId) : Prop where
  operands : forall operand, operand ∈ clause.children -> operand < count
  literal : forall literal, clause = .leaf (.exact literal) -> Stream.length literal ≠ 0

/-- Whether all clauses of a state have their numbers, and keys those of
nodes. -/
structure LoweringState.Numbered (state : LoweringState L) : Prop where
  nodes : forall (id : NodeId) clause, state.nodes[id]? = some clause -> clause.FitsAt id
  placed : forall key id, state.placedAt? key = some id -> id < state.nodes.length

/-! ## Lowering -/

namespace Lowering

variable {α β : Type}

/-- Whether lowering that starts with so many nodes at least keeps all clauses
numbered, and comes to a result that goes with the number of nodes then. -/
def Numbers (lowering : Lowering L α) (bound : Nat) (within : α -> Nat -> Prop) : Prop :=
  forall state result after, state.Numbered -> bound ≤ state.nodes.length ->
    lowering.Yields state result after ->
      after.Numbered ∧ state.nodes.length ≤ after.nodes.length ∧
        within result after.nodes.length

variable {bound : Nat} {within : α -> Nat -> Prop}

theorem numbers_pure {result : α} (holds : forall count, bound ≤ count -> within result count) :
    (pure result : Lowering L α).Numbers bound within := by
  intro state result' after numbered enough yields
  rcases yields_pure.mp yields with ⟨rfl, rfl⟩
  exact ⟨numbered, Nat.le_refl _, holds _ enough⟩

theorem numbers_bind {lowering : Lowering L α} {next : α -> Lowering L β}
    {later : β -> Nat -> Prop} (first : lowering.Numbers bound within)
    (second : forall result count, bound ≤ count -> within result count ->
      (next result).Numbers count later) :
    (lowering >>= next).Numbers bound later := by
  intro state result after numbered enough yields
  rcases yields_bind.mp yields with ⟨middle, place, isMiddle, isLast⟩
  rcases first state middle place numbered enough isMiddle with ⟨between, grows, holds⟩
  have moreNodes := Nat.le_trans enough grows
  rcases second middle _ moreNodes holds place result after between (Nat.le_refl _) isLast with
    ⟨last, growsAgain, ends⟩
  exact ⟨last, Nat.le_trans grows growsAgain, ends⟩

theorem numbers_throw (error : GrammarError) :
    (throw error : Lowering L α).Numbers bound within := by
  intro state result after _ _ yields
  exact absurd yields not_yields_throw

/-- Only nodes and keys matter. -/
theorem numbered_of_same {state after : LoweringState L} (numbered : state.Numbered)
    (nodes : after.nodes = state.nodes) (placed : after.placed = state.placed) :
    after.Numbered := by
  rcases after with ⟨_, _, cache⟩
  cases nodes
  cases placed
  exact ⟨numbered.nodes, numbered.placed⟩

theorem numbers_compile (source : String) :
    (compile source : Lowering L PatternProgram).Numbers bound fun _ _ => True := by
  intro state program after numbered enough yields
  have same : after.nodes = state.nodes ∧ after.placed = state.placed := by
    rw [compile] at yields
    rcases yields_bind.mp yields with ⟨read, place, first, rest⟩
    cases first
    cases asked : state.cache.getOrCompile source with
    | mk pattern cache =>
        simp only [asked] at rest
        rcases yields_bind.mp rest with ⟨_, _, second, last⟩
        cases second
        cases pattern with
        | none => exact absurd last not_yields_throw
        | some found =>
            cases last
            exact ⟨rfl, rfl⟩
  exact ⟨numbered_of_same numbered same.1 same.2, Nat.le_of_eq (congrArg List.length same.1.symm),
    trivial⟩

theorem numbers_leaf (atom : Leaf L Unit) :
    (leaf atom).Numbers bound fun atom' _ =>
      forall literal, atom' = .exact literal -> Stream.length literal ≠ 0 := by
  cases atom with
  | exact literal =>
      rw [leaf]
      split
      · exact numbers_throw _
      · rename_i notEmpty
        apply numbers_pure
        rintro _ _ _ ⟨rfl⟩ none
        exact notEmpty (beq_iff_eq.mpr none)
  | charset set label read => exact numbers_pure fun _ _ _ isExact => by cases isExact
  | pattern source program text =>
      apply numbers_bind (numbers_compile source)
      intro compiled count _ _
      exact numbers_pure fun _ _ _ isExact => by cases isExact
  | empty => exact numbers_pure fun _ _ _ isExact => by cases isExact
  | eof => exact numbers_pure fun _ _ _ isExact => by cases isExact
  | fail message payload => exact numbers_pure fun _ _ _ isExact => by cases isExact
  | custom name act => exact numbers_pure fun _ _ _ isExact => by cases isExact

theorem numbers_place (key : Nat) {clause : Clause L PatternProgram NodeId}
    (fits : clause.FitsAt bound) :
    (place key clause).Numbers bound fun id count => id < count := by
  intro state id after numbered enough yields
  rcases yields_place.mp yields with ⟨rfl, rfl⟩
  have longer : (state.nodes ++ [clause]).length = state.nodes.length + 1 := by simp
  refine ⟨⟨?_, ?_⟩, ?_, ?_⟩
  · intro id placed found
    by_cases old : id < state.nodes.length
    · rw [List.getElem?_append_left old] at found
      exact numbered.nodes id placed found
    · have inside := (List.getElem?_eq_some_iff.mp found).1
      have isLast : id = state.nodes.length := by
        rw [longer] at inside
        exact Nat.le_antisymm (Nat.le_of_lt_succ inside) (Nat.le_of_not_lt old)
      rw [isLast, List.getElem?_concat_length] at found
      cases found
      rw [isLast]
      exact ⟨fun operand member => Nat.lt_of_lt_of_le (fits.operands operand member) enough,
        fits.literal⟩
  · intro other id isPlaced
    dsimp only
    rw [longer]
    by_cases same : key = other
    · have isLast : some state.nodes.length = some id := by
        rw [<- isPlaced, LoweringState.placedAt?, List.find?_cons, same, beq_self_eq_true,
          Option.map_some]
      rw [<- Option.some.inj isLast]
      exact Nat.lt_succ_self _
    · have isOld : state.placedAt? other = some id := by
        rw [<- isPlaced, LoweringState.placedAt?, LoweringState.placedAt?, List.find?_cons,
          beq_false_of_ne same]
      exact Nat.lt_succ_of_lt (numbered.placed other id isOld)
  · dsimp only
    rw [longer]
    exact Nat.le_succ _
  · dsimp only
    rw [longer]
    exact Nat.lt_succ_self _

/-- Whether all of some numbers are below another. -/
def AllBelow (ids : List NodeId) (count : Nat) : Prop :=
  forall id, id ∈ ids -> id < count

theorem allBelow_cons {id : NodeId} {ids : List NodeId} {count : Nat} (first : id < count)
    (rest : AllBelow ids count) : AllBelow (id :: ids) count := by
  intro other member
  rcases List.mem_cons.mp member with own | inRest
  · rw [own]
    exact first
  · exact rest other inRest

theorem numbers_exprs {items : List (Expr L)}
    (each : forall item, item ∈ items -> forall bound,
      (expr item).Numbers bound fun id count => id < count) :
    (exprs items).Numbers bound AllBelow := by
  induction items generalizing bound with
  | nil =>
      apply numbers_pure
      intro count _ id member
      cases member
  | cons first rest inductionHypothesis =>
      apply numbers_bind (each first List.mem_cons_self bound)
      intro id count _ (isBelow : id < count)
      apply numbers_bind
        (inductionHypothesis fun item member => each item (List.mem_cons_of_mem first member))
      intro ids more enough restBelow
      apply numbers_pure
      intro last stillEnough
      apply allBelow_cons
      · exact Nat.lt_of_lt_of_le isBelow (Nat.le_trans enough stillEnough)
      · intro other member
        exact Nat.lt_of_lt_of_le (restBelow other member) stillEnough

/-- A clause with one operand, which is lowered first. -/
theorem numbers_inner {inner : Expr L} {build : NodeId -> Clause L PatternProgram NodeId}
    (each : (expr inner).Numbers bound fun id count => id < count)
    (operands : forall id, (build id).children = [id]) :
    (expr inner >>= fun id => pure (build id)).Numbers bound fun clause count =>
      clause.FitsAt count := by
  apply numbers_bind each
  intro id count _ (isBelow : id < count)
  apply numbers_pure
  intro last enough
  constructor
  · intro operand member
    rw [operands id, List.mem_singleton] at member
    rw [member]
    exact Nat.lt_of_lt_of_le isBelow enough
  · intro literal isLeaf
    have none := operands id
    rw [isLeaf] at none
    cases none

/-- A clause with several operands. -/
theorem numbers_items {first : Expr L} {rest : List (Expr L)}
    (build : List NodeId -> Clause L PatternProgram NodeId)
    (each : forall item, item ∈ first :: rest -> forall bound,
      (expr item).Numbers bound fun id count => id < count)
    (operands : forall ids, (build ids).children = ids)
    (isNoLeaf : forall ids atom, build ids ≠ .leaf atom) :
    (expr first >>= fun id => exprs rest >>= fun ids => pure (build (id :: ids))).Numbers bound
      fun clause count => clause.FitsAt count := by
  apply numbers_bind (each first List.mem_cons_self bound)
  intro id count _ (isBelow : id < count)
  apply numbers_bind
    (numbers_exprs fun item member => each item (List.mem_cons_of_mem first member))
  intro ids more enough restBelow
  apply numbers_pure
  intro last stillEnough
  constructor
  · intro operand member
    rw [operands] at member
    have below : AllBelow (id :: ids) more :=
      allBelow_cons (Nat.lt_of_lt_of_le isBelow enough) restBelow
    exact Nat.lt_of_lt_of_le (below operand member) stillEnough
  · intro literal isLeaf
    exact absurd isLeaf (isNoLeaf _ _)

theorem numbers_clause {written : Clause L Unit (Expr L)}
    (each : forall child, child ∈ written.children -> forall bound,
      (expr child).Numbers bound fun id count => id < count) :
    (clause written).Numbers bound fun clause count => clause.FitsAt count := by
  have alone : forall inner : Expr L, inner ∈ [inner] := fun inner => List.mem_singleton.mpr rfl
  cases written with
  | leaf atom =>
      apply numbers_bind (numbers_leaf atom)
      intro atom' count _ notEmpty
      apply numbers_pure
      intro last _
      constructor
      · intro operand member
        cases member
      · rintro literal ⟨rfl⟩
        exact notEmpty literal rfl
  | map inner transform => exact numbers_inner (each inner (alone inner) bound) fun _ => rfl
  | update inner next => exact numbers_inner (each inner (alone inner) bound) fun _ => rfl
  | sequence items gather =>
      cases items with
      | nil => exact numbers_throw _
      | cons first rest =>
          exact numbers_items (Clause.sequence · gather) each (fun _ => rfl)
            fun _ _ isLeaf => by cases isLeaf
  | choice alts =>
      cases alts with
      | nil => exact numbers_throw _
      | cons first rest =>
          exact numbers_items Clause.choice each (fun _ => rfl)
            fun _ _ isLeaf => by cases isLeaf
  | optional inner element => exact numbers_inner (each inner (alone inner) bound) fun _ => rfl
  | attempt inner => exact numbers_inner (each inner (alone inner) bound) fun _ => rfl
  | lookahead inner look negative =>
      apply numbers_bind (each inner List.mem_cons_self bound)
      intro id count _ (isBelow : id < count)
      apply numbers_bind (each look (List.mem_cons_of_mem _ (alone look)) count)
      intro other more enough (otherBelow : other < more)
      apply numbers_pure
      intro last stillEnough
      constructor
      · intro operand member
        rcases List.mem_cons.mp member with isInner | isLook
        · rw [isInner]
          exact Nat.lt_of_lt_of_le isBelow (Nat.le_trans enough stillEnough)
        · rw [List.mem_singleton.mp isLook]
          exact Nat.lt_of_lt_of_le otherBelow stillEnough
      · intro literal isLeaf
        cases isLeaf
  | repeated inner element min max =>
      exact numbers_inner (each inner (alone inner) bound) fun _ => rfl
  | reference name expected target =>
      apply numbers_pure
      intro count _
      constructor
      · intro operand member
        cases member
      · intro literal isLeaf
        cases isLeaf
  | leftRecursion inner => exact numbers_inner (each inner (alone inner) bound) fun _ => rfl

theorem numbers_expr (written : Expr L) (bound : Nat) :
    (expr written).Numbers bound fun id count => id < count := by
  induction written generalizing bound with
  | node key written inductionHypothesis =>
      rw [expr]
      intro state result after numbered enough yields
      rcases yields_bind.mp yields with ⟨found, place, isFound, rest⟩
      rcases yields_node?.mp isFound with ⟨rfl, rfl⟩
      cases isPlaced : place.placedAt? key with
      | some id =>
          simp only [isPlaced] at rest
          rcases yields_pure.mp rest with ⟨rfl, rfl⟩
          exact ⟨numbered, Nat.le_refl _, numbered.placed key result isPlaced⟩
      | none =>
          simp only [isPlaced] at rest
          have whole := numbers_bind (numbers_clause inductionHypothesis)
            fun lowered count (_ : bound ≤ count) fits => numbers_place key fits
          exact whole place result after numbered enough rest

end Lowering

theorem GrammarBuilder.numbers_lowerRules (definitions : List (Definition L)) (bound : Nat) :
    (lowerRules definitions).Numbers bound fun rules count =>
      forall rule, rule ∈ rules -> rule.root < count := by
  induction definitions generalizing bound with
  | nil =>
      apply Lowering.numbers_pure
      intro count _ rule member
      cases member
  | cons definition rest inductionHypothesis =>
      apply Lowering.numbers_bind (Lowering.numbers_expr definition.parser.expr bound)
      intro root count _ (isBelow : root < count)
      apply Lowering.numbers_bind (inductionHypothesis count)
      intro rules more enough restBelow
      apply Lowering.numbers_pure
      intro last stillEnough rule member
      rcases List.mem_cons.mp member with own | inRest
      · rw [own]
        exact Nat.lt_of_lt_of_le isBelow (Nat.le_trans enough stillEnough)
      · exact Nat.lt_of_lt_of_le (restBelow rule inRest) stillEnough

/-! ## Binding and redirecting -/

namespace Grammar

/-- How a built grammar is numbered. -/
structure Ordered (grammar : Grammar L) : Prop where
  inRange : forall {id operand}, grammar.Edge Clause.children id operand ->
    operand < grammar.nodeCount
  descends : forall {id operand}, grammar.Edge Clause.children id operand ->
    operand < id ∨ exists rule, rule ∈ grammar.rules ∧ rule.root = operand
  roots : forall rule, rule ∈ grammar.rules -> rule.root < grammar.nodeCount
  literals : forall (id : NodeId) literal,
    grammar.nodes[id]? = some (.leaf (.exact literal)) -> Stream.length literal ≠ 0

/-- The target of a reference that has been bound is the root of a rule. -/
theorem root_of_target {rules : List (Rule L)}
    {nodes bound : List (Clause L PatternProgram NodeId)}
    (areBound : List.Forall₂ (fun clause clause' => bind rules clause = .ok clause') nodes bound)
    {id target : NodeId} {name : String} {expected : ValueType L.Kind}
    (found : bound[id]? = some (.reference name expected (some target))) :
    exists rule, rule ∈ rules ∧ rule.root = target := by
  rcases List.getElem?_eq_some_iff.mp found with ⟨inRange, isReference⟩
  have inNodes : id < nodes.length := by rwa [areBound.length_eq]
  have isBound := areBound.get inNodes inRange
  rw [List.get_eq_getElem, List.get_eq_getElem, isReference] at isBound
  rcases bind_ok isBound with ⟨noReference, same⟩ | ⟨_, _, _, rule, _, isRule, _, same⟩
  · rw [<- same] at noReference
    cases noReference
  · cases same
    exact ⟨rule, List.mem_of_find?_eq_some isRule, rfl⟩

/-- A chain of references ends where it starts, or at the end of a chain that
starts at the root of a rule. -/
theorem Chain.end_root {rules : List (Rule L)}
    {nodes bound : List (Clause L PatternProgram NodeId)}
    (areBound : List.Forall₂ (fun clause clause' => bind rules clause = .ok clause') nodes bound)
    (rootsInRange : forall rule, rule ∈ rules -> rule.root < bound.length) {length : Nat}
    {id last : NodeId} (chain : Chain bound length id last) (inRange : id < bound.length) :
    last < bound.length ∧
      (last = id ∨ exists rule, rule ∈ rules ∧ exists rest, Chain bound rest rule.root last) := by
  induction chain with
  | stop ends => exact ⟨inRange, Or.inl rfl⟩
  | @step length id target last name expected found rest inductionHypothesis =>
      rcases root_of_target areBound found with ⟨rule, member, rfl⟩
      exact ⟨(inductionHypothesis (rootsInRange rule member)).1,
        Or.inr ⟨rule, member, length, rest⟩⟩

section Redirecting

open GrammarBuilder

variable {rules : List (Rule L)} {nodes bound : List (Clause L PatternProgram NodeId)}
  {ends : List NodeId}

/-- A number is replaced by itself, or by what the root of a rule is replaced
by. -/
theorem target_inRange
    (areBound : List.Forall₂ (fun clause clause' => bind rules clause = .ok clause') nodes bound)
    (areTargets : targets bound = .ok ends)
    (rootsInRange : forall rule, rule ∈ rules -> rule.root < bound.length) {id : NodeId}
    (inRange : id < bound.length) :
    Assembly.target ends id < bound.length ∧
      (Assembly.target ends id = id ∨ exists rule, rule ∈ rules ∧
        Assembly.target ends rule.root = Assembly.target ends id) := by
  have target_eq : forall {id last : NodeId}, ends[id]? = some last ->
      Assembly.target ends id = last := by
    intro id last isTarget
    rw [Assembly.target, isTarget, Option.getD_some]
  rcases targets_ok areTargets inRange with ⟨length, last, _, isTarget, chain⟩
  rcases chain.end_root areBound rootsInRange inRange with ⟨lastInRange, reached⟩
  rw [target_eq isTarget]
  refine ⟨lastInRange, ?_⟩
  rcases reached with own | ⟨rule, member, rest, fromRoot⟩
  · exact Or.inl own
  · rcases targets_ok areTargets (rootsInRange rule member) with ⟨_, last', _, isTarget', chain'⟩
    refine Or.inr ⟨rule, member, ?_⟩
    rw [target_eq isTarget']
    exact (chain'.unique fromRoot).2

/-- A node of a redirected grammar is a clause that could have its number, with
its operands replaced, or a reference. -/
theorem redirect_node
    (areBound : List.Forall₂ (fun clause clause' => bind rules clause = .ok clause') nodes bound)
    (fits : forall (id : NodeId) clause, nodes[id]? = some clause -> clause.FitsAt id)
    {id : NodeId} {clause : Clause L PatternProgram NodeId}
    (found : (redirect ends ⟨bound, rules⟩).nodes[id]? = some clause) :
    exists lowered : Clause L PatternProgram NodeId, lowered.FitsAt id ∧ id < bound.length ∧
      (clause = lowered.redirect (Assembly.target ends) ∨ clause.isReference = true) := by
  rcases Option.map_eq_some_iff.mp (List.getElem?_map.symm.trans found) with
    ⟨placed, isPlaced, rfl⟩
  rcases List.getElem?_eq_some_iff.mp isPlaced with ⟨inRange, rfl⟩
  have inNodes : id < nodes.length := by rwa [areBound.length_eq]
  refine ⟨nodes[id], fits id _ (List.getElem?_eq_getElem inNodes), inRange, ?_⟩
  have bindsTo := areBound.get inNodes inRange
  rw [List.get_eq_getElem, List.get_eq_getElem] at bindsTo
  rcases bind_ok bindsTo with ⟨_, same⟩ | ⟨_, _, _, _, _, _, _, same⟩
  · rw [same]
    exact Or.inl rfl
  · rw [same]
    exact Or.inr rfl

theorem redirect_edge
    (areBound : List.Forall₂ (fun clause clause' => bind rules clause = .ok clause') nodes bound)
    (fits : forall (id : NodeId) clause, nodes[id]? = some clause -> clause.FitsAt id)
    {id child : NodeId} (edge : (redirect ends ⟨bound, rules⟩).Edge Clause.children id child) :
    exists lowered, lowered < id ∧ id < bound.length ∧ child = Assembly.target ends lowered := by
  rcases edge with ⟨clause, found, member⟩
  rcases redirect_node areBound fits found with ⟨lowered, fitsAt, inRange, rfl | isReference⟩
  · rw [Clause.children_redirect] at member
    rcases List.mem_map.mp member with ⟨original, isOriginal, rfl⟩
    exact ⟨original, fitsAt.operands original isOriginal, inRange, rfl⟩
  · rcases Clause.eq_reference_of_isReference isReference with ⟨name, expected, reference, rfl⟩
    cases member

/-- Binding and redirecting clauses that have their numbers gives an ordered
grammar. -/
theorem redirect_ordered
    (areBound : List.Forall₂ (fun clause clause' => bind rules clause = .ok clause') nodes bound)
    (fits : forall (id : NodeId) clause, nodes[id]? = some clause -> clause.FitsAt id)
    (areTargets : targets bound = .ok ends)
    (rootsInRange : forall rule, rule ∈ rules -> rule.root < bound.length) :
    (redirect ends ⟨bound, rules⟩).Ordered := by
  have sameCount : (redirect ends ⟨bound, rules⟩).nodeCount = bound.length := List.length_map _
  constructor
  · intro id child edge
    rcases redirect_edge areBound fits edge with ⟨lowered, below, inRange, rfl⟩
    rw [sameCount]
    exact (target_inRange areBound areTargets rootsInRange (Nat.lt_trans below inRange)).1
  · intro id child edge
    rcases redirect_edge areBound fits edge with ⟨lowered, below, inRange, rfl⟩
    have replaced := target_inRange areBound areTargets rootsInRange (Nat.lt_trans below inRange)
    rcases replaced.2 with own | ⟨rule, member, same⟩
    · rw [own]
      exact Or.inl below
    · exact Or.inr ⟨{ rule with root := Assembly.target ends rule.root },
        List.mem_map.mpr ⟨rule, member, rfl⟩, same⟩
  · intro rule member
    rcases List.mem_map.mp member with ⟨original, isOriginal, rfl⟩
    rw [sameCount]
    exact (target_inRange areBound areTargets rootsInRange (rootsInRange original isOriginal)).1
  · intro id literal found
    rcases redirect_node areBound fits found with ⟨lowered, fitsAt, _, same | isReference⟩
    · cases lowered with
      | leaf atom =>
          cases same
          exact fitsAt.literal literal rfl
      | _ => cases same
    · cases isReference

/-- Redirecting replaces no target of a reference. -/
theorem redirect_target
    (areBound : List.Forall₂ (fun clause clause' => bind rules clause = .ok clause') nodes bound)
    {id target : NodeId} {name : String} {expected : ValueType L.Kind}
    (found : (redirect ends ⟨bound, rules⟩).nodes[id]? =
      some (.reference name expected (some target))) :
    exists rule, rule ∈ rules ∧ rule.root = target := by
  rcases Option.map_eq_some_iff.mp (List.getElem?_map.symm.trans found) with
    ⟨placed, isPlaced, same⟩
  cases placed with
  | reference name' expected' target' =>
      cases same
      exact root_of_target areBound isPlaced
  | _ => cases same

end Redirecting

end Grammar

namespace GrammarBuilder

/-- Lowering numbers all clauses, and the rules start at nodes. -/
theorem numbered_of_yields {builder : GrammarBuilder L} {cache : PatternCache}
    {rules : List (Rule L)} {state : LoweringState L}
    (yields : (lowerRules builder.definitions).Yields (Lowering.start cache) rules state) :
    state.Numbered ∧ forall rule, rule ∈ rules -> rule.root < state.nodes.length := by
  have empty : (Lowering.start cache : LoweringState L).Numbered := by
    constructor
    · intro id clause found
      cases found
    · intro key id isPlaced
      cases isPlaced
  rcases numbers_lowerRules builder.definitions 0 _ rules state empty (Nat.zero_le _) yields with
    ⟨numbered, _, rootsBelow⟩
  exact ⟨numbered, rootsBelow⟩

/-- Whether a grammar is what becomes of some rules when they are lowered, bound and
redirected.  Whether the check at the end accepts it is left open. -/
def ResolvesTo (builder : GrammarBuilder L) (cache : PatternCache) (grammar : Grammar L) : Prop :=
  exists rules state bound ends,
    (lowerRules builder.definitions).Yields (Lowering.start cache) rules state ∧
      Grammar.bindAll rules state.nodes = .ok bound ∧ Grammar.targets bound = .ok ends ∧
      grammar = Grammar.redirect ends ⟨bound, rules⟩

theorem build_resolvesTo {builder : GrammarBuilder L} {cache after : PatternCache}
    {built : BuiltGrammar L} (accepted : builder.build cache = (.ok built, after)) :
    builder.ResolvesTo cache built.grammar := by
  rcases build_accepted accepted with
    ⟨_, rules, state, yields, _, bound, ends, isBound, areTargets, isGrammar⟩
  exact ⟨rules, state, bound, ends, yields, isBound, areTargets, isGrammar⟩

/-- The operands of a resolved grammar have smaller numbers or are roots of
rules. -/
theorem ResolvesTo.ordered {builder : GrammarBuilder L} {cache : PatternCache}
    {grammar : Grammar L} (resolves : builder.ResolvesTo cache grammar) : grammar.Ordered := by
  rcases resolves with ⟨rules, state, bound, ends, yields, isBound, areTargets, rfl⟩
  rcases numbered_of_yields yields with ⟨numbered, rootsBelow⟩
  have areBound := Grammar.bindAll_ok isBound
  apply Grammar.redirect_ordered areBound numbered.nodes areTargets
  intro rule member
  rw [<- areBound.length_eq]
  exact rootsBelow rule member

/-- References of a resolved grammar lead to nodes. -/
theorem ResolvesTo.target_inRange {builder : GrammarBuilder L} {cache : PatternCache}
    {grammar : Grammar L} (resolves : builder.ResolvesTo cache grammar) {id target : NodeId}
    {name : String} {expected : ValueType L.Kind}
    (found : grammar.nodes[id]? = some (.reference name expected (some target))) :
    target < grammar.nodeCount := by
  rcases resolves with ⟨rules, state, bound, ends, yields, isBound, areTargets, rfl⟩
  have areBound := Grammar.bindAll_ok isBound
  rcases Grammar.redirect_target areBound found with ⟨rule, member, rfl⟩
  have sameCount : (Grammar.redirect ends ⟨bound, rules⟩).nodeCount = bound.length :=
    List.length_map _
  rw [sameCount, <- areBound.length_eq]
  exact (numbered_of_yields yields).2 rule member

/-- The operands of a built grammar have smaller numbers or are roots of
rules. -/
theorem build_ordered {builder : GrammarBuilder L} {cache after : PatternCache}
    {built : BuiltGrammar L} (accepted : builder.build cache = (.ok built, after)) :
    built.grammar.Ordered :=
  (build_resolvesTo accepted).ordered

end GrammarBuilder
end SeedGrammar
