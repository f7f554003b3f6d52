import SeedGrammar.Proofs.Grammar.Nullability
import SeedGrammar.Proofs.Grammar.Numbering
import SeedGrammar.Proofs.Grammar.ReferenceCycles

namespace SeedGrammar

/-!
# Rendering ends

The text of a node has the texts of its operands in it.  A grammar whose rules refer to
each other would not have a finite text that way, so below the node that is asked for the
root of a rule is shown by the name of the rule.  There may be cycles, and no record is
kept of what is being shown; that rendering ends rests on how a resolved grammar is
numbered.  Operands have smaller numbers than their clause, unless they are what a
reference was replaced by, and then they are roots of rules.

What rendering comes to can be said without a bound on its depth.  Read as rules this
makes up a relation, `Grammar.Shows`, and rendering a node ends if the relation gives it a
text.  For a resolved grammar it gives one to every node, and that is the text that is
returned, `GrammarBuilder.rendering_ends`.

Grammars are rendered also when they are refused: the error shows what may match nothing
although it is repeated or starts with itself.  That check comes last.  So the errors that
show a node are about grammars that have been resolved, and those before show none.
-/

variable {L : Signature}

namespace Grammar

/-- Whether a node is shown by its clause: it is at the top, or no rule starts at it. -/
def Opens (grammar : Grammar L) (top : Bool) (id : NodeId) : Prop :=
  top = true ∨ grammar.rootName? id = none

/-- How a node is shown, without a bound on the depth. -/
inductive Shows (grammar : Grammar L) : Bool -> NodeId -> String -> Prop where
  | named {id name} : grammar.rootName? id = some name ->
      Shows grammar false id ("<" ++ name ++ ">")
  | unlisted {top id} : grammar.Opens top id -> grammar.nodes[id]? = none ->
      Shows grammar top id ("?" ++ id.display)
  | opened {top id clause operand} : grammar.Opens top id -> grammar.nodes[id]? = some clause ->
      (forall child, child ∈ clause.children -> Shows grammar false child (operand child)) ->
      Shows grammar top id (clauseText operand clause)

/-- Whether one node is rendered in the course of rendering another one, directly. -/
def Nests (grammar : Grammar L) (top : Bool) (id child : NodeId) : Prop :=
  grammar.Opens top id ∧ grammar.Edge Clause.children id child

/-- The nodes that are rendered one inside the other, below the first. -/
inductive Nested (grammar : Grammar L) : Bool -> NodeId -> List NodeId -> Prop where
  | here {top id} : Nested grammar top id []
  | inside {top id child path} : grammar.Nests top id child -> Nested grammar false child path ->
      Nested grammar top id (child :: path)

/-- Whether a node below the top is shown by a name, with nothing rendered inside. -/
def StopsAt (grammar : Grammar L) (id : NodeId) : Prop :=
  exists name, grammar.rootName? id = some name ∧
    (forall text, grammar.Shows false id text ↔ text = "<" ++ name ++ ">") ∧
    forall child, ¬grammar.Nests false id child

/-- Whether rendering ends at every node.  A node inside another one has a smaller number,
or is shown by a name.  So numbers go down along nested nodes, with the last one as the
only exception, and there are as many as numbers up to the first at most.  Each node has
one text by the rules, and it is the one that is returned. -/
structure RenderingEnds (grammar : Grammar L) : Prop where
  descends : forall {top id child}, grammar.Nests top id child ->
    child < id ∨ grammar.StopsAt child
  nested : forall {top id path}, grammar.Nested top id path ->
    (id :: path.dropLast).IsChain (· > ·) ∧ path.length ≤ id + 1
  ends : forall id text, grammar.Shows true id text ↔ text = grammar.describe id

/-! ## The rules of rendering -/

variable {grammar : Grammar L} {top : Bool} {id child : NodeId}

/-- The text of a clause depends on those of its operands only. -/
theorem clauseText_congr {first second : NodeId -> String}
    {clause : Clause L PatternProgram NodeId}
    (same : forall operand, operand ∈ clause.children -> first operand = second operand) :
    clauseText first clause = clauseText second clause := by
  have alone : forall inner : NodeId, inner ∈ [inner] := fun inner => List.mem_singleton.mpr rfl
  cases clause with
  | leaf atom => rfl
  | map inner transform => rw [clauseText, clauseText, same inner (alone inner)]
  | update inner next => rw [clauseText, clauseText, same inner (alone inner)]
  | sequence items gather => exact congrArg (wrapped "Seq") (List.map_congr_left same)
  | choice alts => exact congrArg (wrapped "Alt") (List.map_congr_left same)
  | optional inner element => rw [clauseText, clauseText, same inner (alone inner)]
  | attempt inner => rw [clauseText, clauseText, same inner (alone inner)]
  | lookahead inner look negative =>
      rw [clauseText, clauseText, same inner List.mem_cons_self,
        same look (List.mem_cons_of_mem inner (alone look))]
  | repeated inner element min max => rw [clauseText, clauseText, same inner (alone inner)]
  | reference name expected target => rfl
  | leftRecursion inner => rw [clauseText, clauseText, same inner (alone inner)]

theorem not_opens {name : String} (isRoot : grammar.rootName? id = some name) :
    ¬grammar.Opens false id := by
  rintro (atTop | noRoot)
  · cases atTop
  · rw [isRoot] at noRoot
    cases noRoot

theorem exists_name_of_not_opens (closed : ¬grammar.Opens top id) :
    exists name, top = false ∧ grammar.rootName? id = some name := by
  rcases not_or.mp closed with ⟨notAtTop, isRoot⟩
  rcases Option.ne_none_iff_exists'.mp isRoot with ⟨name, isNamed⟩
  exact ⟨name, Bool.eq_false_iff.mpr notAtTop, isNamed⟩

/-- A node is shown in one way. -/
theorem Shows.unique {text text' : String} (shows : grammar.Shows top id text)
    (shows' : grammar.Shows top id text') : text = text' := by
  induction shows generalizing text' with
  | named isRoot =>
      cases shows' with
      | named isRoot' =>
          rw [isRoot] at isRoot'
          cases isRoot'
          rfl
      | unlisted opens _ | opened opens _ _ => exact absurd opens (not_opens isRoot)
  | unlisted opens absent =>
      cases shows' with
      | named isRoot => exact absurd opens (not_opens isRoot)
      | unlisted _ _ => rfl
      | opened _ found _ =>
          rw [absent] at found
          cases found
  | opened opens found _ inductionHypothesis =>
      cases shows' with
      | named isRoot => exact absurd opens (not_opens isRoot)
      | unlisted _ absent =>
          rw [found] at absent
          cases absent
      | opened _ found' inside =>
          rw [found] at found'
          cases found'
          apply clauseText_congr
          intro operand member
          exact inductionHypothesis operand member (inside operand member)

/-- The root of a rule is shown by a name, unless it is at the top. -/
theorem stopsAt_of_root {rule : Rule L} (member : rule ∈ grammar.rules)
    (isRoot : rule.root = id) : grammar.StopsAt id := by
  have listed : (grammar.rules.find? (·.root == id)).isSome = true :=
    List.find?_isSome.mpr ⟨rule, member, beq_iff_eq.mpr isRoot⟩
  rcases Option.isSome_iff_exists.mp listed with ⟨first, isFirst⟩
  have isNamed : grammar.rootName? id = some first.name := by
    rw [rootName?, isFirst, Option.map_some]
  refine ⟨first.name, isNamed, ?_, fun child nests => not_opens isNamed nests.1⟩
  intro text
  constructor
  · intro shows
    exact shows.unique (.named isNamed)
  · rintro rfl
    exact .named isNamed

/-! ## Nested nodes -/

theorem Ordered.descends_or_stops (ordered : grammar.Ordered) (nests : grammar.Nests top id child) :
    child < id ∨ grammar.StopsAt child := by
  rcases ordered.descends nests.2 with smaller | ⟨rule, member, isRoot⟩
  · exact Or.inl smaller
  · exact Or.inr (stopsAt_of_root member isRoot)

/-- Only the last of some nested nodes can have a number that is not smaller: it is a root
then, in which nothing is nested. -/
theorem Ordered.nested_descends (ordered : grammar.Ordered) {path : List NodeId}
    (nested : grammar.Nested top id path) :
    (id :: path.dropLast).IsChain (· > ·) ∧ path.length ≤ id + 1 := by
  induction nested with
  | @here top id => exact ⟨.singleton id, Nat.zero_le _⟩
  | @inside top id child path nests inner inductionHypothesis =>
      -- Where something is nested in the child as well, the child is no root.
      cases inner with
      | here => exact ⟨.singleton id, Nat.succ_le_succ (Nat.zero_le id)⟩
      | inside nests' _ =>
          rcases ordered.descends_or_stops nests with smaller | ⟨_, _, _, none⟩
          · rcases inductionHypothesis with ⟨down, short⟩
            rw [List.dropLast_cons_of_ne_nil (List.cons_ne_nil _ _)]
            refine ⟨.cons_cons smaller down, ?_⟩
            exact Nat.succ_le_succ (Nat.le_trans short smaller)
          · exact absurd nests' (none _)

/-! ## What is returned -/

theorem describeWithin_named {name : String} (isRoot : grammar.rootName? id = some name)
    (fuel : Nat) : grammar.describeWithin fuel false id = "<" ++ name ++ ">" := by
  rw [describeWithin.eq_def]
  dsimp only
  rw [if_neg Bool.false_ne_true, isRoot]

theorem Opens.noName (opens : grammar.Opens top id) :
    (if top then none else grammar.rootName? id) = none := by
  rcases opens with atTop | noRoot
  · rw [if_pos atTop]
  · rw [noRoot, ite_self]

theorem describeWithin_unlisted (opens : grammar.Opens top id) (absent : grammar.nodes[id]? = none)
    (fuel : Nat) : grammar.describeWithin fuel top id = "?" ++ id.display := by
  rw [describeWithin.eq_def]
  dsimp only
  rw [opens.noName, absent]
  cases fuel with
  | zero => rfl
  | succ fuel => rfl

theorem describeWithin_opened (opens : grammar.Opens top id)
    {clause : Clause L PatternProgram NodeId} (found : grammar.nodes[id]? = some clause)
    (fuel : Nat) : grammar.describeWithin (fuel + 1) top id =
      clauseText (grammar.describeWithin fuel false) clause := by
  rw [describeWithin.eq_def]
  dsimp only
  rw [opens.noName, found]

/-- A depth beyond the number of a node is not used up when the node is rendered.  The
induction is on the number. -/
theorem Ordered.describeWithin_shows (ordered : grammar.Ordered) {fuel : Nat}
    (enough : id < grammar.nodeCount -> id < fuel) :
    grammar.Shows top id (grammar.describeWithin fuel top id) := by
  induction id using Nat.strong_induction_on generalizing top fuel with
  | _ id inductionHypothesis =>
      by_cases opens : grammar.Opens top id
      · cases found : grammar.nodes[id]? with
        | none =>
            rw [describeWithin_unlisted opens found]
            exact .unlisted opens found
        | some clause =>
            have below : id < fuel := enough (List.getElem?_eq_some_iff.mp found).1
            rcases Nat.exists_eq_succ_of_ne_zero (Nat.ne_zero_of_lt below) with ⟨less, rfl⟩
            rw [describeWithin_opened opens found]
            apply Shows.opened opens found
            intro child member
            rcases ordered.descends_or_stops ⟨opens, clause, found, member⟩ with
              smaller | ⟨name, isRoot, _, _⟩
            · apply inductionHypothesis child smaller
              intro _
              exact Nat.lt_of_lt_of_le smaller (Nat.le_of_lt_succ below)
            · rw [describeWithin_named isRoot]
              exact .named isRoot
      · rcases exists_name_of_not_opens opens with ⟨name, rfl, isRoot⟩
        rw [describeWithin_named isRoot]
        exact .named isRoot

/-- Rendering a grammar ends if its operands have smaller numbers or are roots of rules. -/
theorem Ordered.renderingEnds (ordered : grammar.Ordered) : grammar.RenderingEnds where
  descends := ordered.descends_or_stops
  nested := ordered.nested_descends
  ends id text := by
    have shows : grammar.Shows true id (grammar.describe id) :=
      ordered.describeWithin_shows fun inRange => Nat.lt_succ_of_lt inRange
    constructor
    · intro shows'
      exact shows'.unique shows
    · rintro rfl
      exact shows

end Grammar

/-! ## Errors that show a node -/

/-- The text of a node that an error shows. -/
def GrammarError.shownNode? : GrammarError -> Option String
  | nullableRepeat parser => some parser
  | nullableLeftRecursion parser => some parser
  | _ => none

namespace Lowering

variable {α β : Type}

/-- Whether lowering shows no node in its errors. -/
def ShowsNoNode (lowering : Lowering L α) : Prop :=
  forall state error after, lowering.run.run state = (.error error, after) ->
    error.shownNode? = none

theorem showsNoNode_pure (result : α) : (pure result : Lowering L α).ShowsNoNode := by
  intro state error after fails
  cases fails

theorem showsNoNode_throw {error : GrammarError} (noNode : error.shownNode? = none) :
    (throw error : Lowering L α).ShowsNoNode := by
  intro state error' after fails
  cases fails
  exact noNode

theorem showsNoNode_bind {lowering : Lowering L α} {next : α -> Lowering L β}
    (first : lowering.ShowsNoNode) (second : forall result, (next result).ShowsNoNode) :
    (lowering >>= next).ShowsNoNode := by
  intro state error after fails
  rw [ExceptT.run_bind, StateT.run_bind] at fails
  cases ran : lowering.run.run state with
  | mk outcome middle =>
      rw [ran] at fails
      cases outcome with
      | error error' =>
          cases fails
          exact first state _ _ ran
      | ok result => exact second result middle error after fails

theorem showsNoNode_map {lowering : Lowering L α} (f : α -> β) (shows : lowering.ShowsNoNode) :
    (lowering >>= fun result => pure (f result)).ShowsNoNode :=
  showsNoNode_bind shows fun result => showsNoNode_pure (f result)

theorem showsNoNode_node? (key : Nat) : (node? key : Lowering L (Option NodeId)).ShowsNoNode := by
  intro state error after fails
  cases fails

theorem showsNoNode_place (key : Nat) (clause : Clause L PatternProgram NodeId) :
    (place key clause).ShowsNoNode := by
  intro state error after fails
  cases fails

theorem showsNoNode_compile (source : String) :
    (compile source : Lowering L PatternProgram).ShowsNoNode := by
  rw [compile]
  apply showsNoNode_bind
  · intro state error after fails
    cases fails
  · intro state
    cases asked : state.cache.getOrCompile source with
    | mk pattern cache =>
        dsimp only
        apply showsNoNode_bind
        · intro state error after fails
          cases fails
        · intro _
          cases pattern with
          | none => exact showsNoNode_throw rfl
          | some program => exact showsNoNode_pure program

theorem showsNoNode_leaf (atom : Leaf L Unit) : (leaf atom).ShowsNoNode := by
  cases atom with
  | exact literal =>
      rw [leaf]
      split
      · exact showsNoNode_throw rfl
      · exact showsNoNode_pure _
  | pattern source program text =>
      exact showsNoNode_map (Leaf.pattern source · text) (showsNoNode_compile source)
  | _ => exact showsNoNode_pure _

theorem showsNoNode_exprs {items : List (Expr L)}
    (each : forall item, item ∈ items -> (expr item).ShowsNoNode) :
    (exprs items).ShowsNoNode := by
  induction items with
  | nil => exact showsNoNode_pure []
  | cons first rest inductionHypothesis =>
      apply showsNoNode_bind (each first List.mem_cons_self)
      intro id
      apply showsNoNode_map
      exact inductionHypothesis fun item member => each item (List.mem_cons_of_mem first member)

/-- A clause with several operands. -/
theorem showsNoNode_items {first : Expr L} {rest : List (Expr L)}
    (build : List NodeId -> Clause L PatternProgram NodeId)
    (each : forall item, item ∈ first :: rest -> (expr item).ShowsNoNode) :
    (expr first >>= fun id => exprs rest >>= fun ids => pure (build (id :: ids))).ShowsNoNode := by
  apply showsNoNode_bind (each first List.mem_cons_self)
  intro id
  apply showsNoNode_map
  exact showsNoNode_exprs fun item member => each item (List.mem_cons_of_mem first member)

theorem showsNoNode_clause {written : Clause L Unit (Expr L)}
    (each : forall child, child ∈ written.children -> (expr child).ShowsNoNode) :
    (clause written).ShowsNoNode := by
  have alone : forall inner : Expr L, inner ∈ [inner] := fun inner => List.mem_singleton.mpr rfl
  cases written with
  | leaf atom => exact showsNoNode_map Clause.leaf (showsNoNode_leaf atom)
  | map inner transform =>
      exact showsNoNode_map (Clause.map · transform) (each inner (alone inner))
  | update inner next => exact showsNoNode_map (Clause.update · next) (each inner (alone inner))
  | sequence items gather =>
      cases items with
      | nil => exact showsNoNode_throw rfl
      | cons first rest => exact showsNoNode_items (Clause.sequence · gather) each
  | choice alts =>
      cases alts with
      | nil => exact showsNoNode_throw rfl
      | cons first rest => exact showsNoNode_items Clause.choice each
  | optional inner element =>
      exact showsNoNode_map (Clause.optional · element) (each inner (alone inner))
  | attempt inner => exact showsNoNode_map Clause.attempt (each inner (alone inner))
  | lookahead inner look negative =>
      apply showsNoNode_bind (each inner List.mem_cons_self)
      intro id
      exact showsNoNode_map (Clause.lookahead id · negative)
        (each look (List.mem_cons_of_mem _ (alone look)))
  | repeated inner element min max =>
      exact showsNoNode_map (Clause.repeated · element min max) (each inner (alone inner))
  | reference name expected target => exact showsNoNode_pure _
  | leftRecursion inner => exact showsNoNode_map Clause.leftRecursion (each inner (alone inner))

theorem showsNoNode_expr (written : Expr L) : (expr written).ShowsNoNode := by
  induction written with
  | node key written inductionHypothesis =>
      rw [expr]
      apply showsNoNode_bind (showsNoNode_node? key)
      intro placed
      cases placed with
      | some id => exact showsNoNode_pure id
      | none =>
          exact showsNoNode_bind (showsNoNode_clause inductionHypothesis) fun lowered =>
            showsNoNode_place key lowered

end Lowering

namespace Grammar

variable {nodes : List (Clause L PatternProgram NodeId)} {error : GrammarError}

theorem bindAll_showsNoNode {rules : List (Rule L)} (fails : bindAll rules nodes = .error error) :
    error.shownNode? = none := by
  fun_induction bindAll rules nodes with
  | case1 => cases fails
  | case2 clause rest other isError =>
      cases fails
      cases clause with
      | reference name expected target =>
          rw [bind] at isError
          split at isError
          · cases isError
            rfl
          · split at isError
            · cases isError
            · cases isError
              rfl
      | _ => cases isError
  | case3 clause rest bound isBound inductionHypothesis =>
      cases others : bindAll rules rest with
      | error other =>
          rw [others] at fails
          cases fails
          exact inductionHypothesis others
      | ok bounds =>
          rw [others] at fails
          cases fails

theorem targets_showsNoNode (fullyBound : FullyBound nodes) (fails : targets nodes = .error error) :
    error.shownNode? = none := by
  rcases targets_error fullyBound fails with ⟨name, rfl, _⟩
  rfl

/-- What an error of the check shows is the operand of a clause that loops. -/
theorem validate_shows {grammar : Grammar L} {known : Nullability} {text : String}
    (fails : grammar.validate nodes known = .error error) (isShown : error.shownNode? = some text) :
    exists clause inner, clause ∈ nodes ∧ clause.looped? = some inner ∧
      text = grammar.describe inner := by
  fun_induction validate grammar nodes known with
  | case1 => cases fails
  | case2 =>
      cases fails
      cases isShown
  | case3 inner element min rest known max | case5 inner element min rest known
    | case7 inner rest known =>
      cases fails
      cases isShown
      exact ⟨_, inner, List.mem_cons_self, rfl, rfl⟩
  | case4 _ _ _ _ _ _ _ _ _ inductionHypothesis | case6 _ _ _ _ _ _ _ inductionHypothesis
    | case8 _ _ _ _ _ inductionHypothesis | case9 _ _ _ _ _ inductionHypothesis =>
      rcases inductionHypothesis fails with ⟨clause, inner, member, loops, isText⟩
      exact ⟨clause, inner, List.mem_cons_of_mem _ member, loops, isText⟩

end Grammar

namespace GrammarBuilder

variable {builder : GrammarBuilder L} {cache after : PatternCache} {error : GrammarError}
  {text : String}

theorem showsNoNode_lowerRules (definitions : List (Definition L)) :
    (lowerRules definitions).ShowsNoNode := by
  induction definitions with
  | nil => exact Lowering.showsNoNode_pure []
  | cons definition rest inductionHypothesis =>
      apply Lowering.showsNoNode_bind (Lowering.showsNoNode_expr definition.parser.expr)
      intro root
      exact Lowering.showsNoNode_map _ inductionHypothesis

/-- An error that shows a node is one of the check of a grammar that has been resolved. -/
theorem build_refused (refused : builder.build cache = (.error error, after))
    (isShown : error.shownNode? = some text) :
    exists grammar, builder.ResolvesTo cache grammar ∧
      grammar.validate grammar.nodes (Nullability.unknown grammar.nodeCount) = .error error := by
  have shows : error.shownNode? ≠ none := isShown ▸ Option.some_ne_none text
  rw [build] at refused
  split at refused
  · cases refused
    cases isShown
  -- The text has to come from the check: nothing before it shows a node.
  · split at refused
    · rename_i error' state ran
      cases refused
      exact absurd (showsNoNode_lowerRules _ _ _ _ ran) shows
    · rename_i rules state ran
      have resolved : resolve ⟨state.nodes, rules⟩ = .error error := congrArg Prod.fst refused
      rw [resolve] at resolved
      split at resolved
      · rename_i error' isError
        cases resolved
        exact absurd (Grammar.bindAll_showsNoNode isError) shows
      · rename_i bound isBound
        split at resolved
        · rename_i error' isError
          cases resolved
          have fullyBound := Grammar.bindAll_fullyBound isBound
          exact absurd (Grammar.targets_showsNoNode fullyBound isError) shows
        · rename_i ends areTargets
          refine ⟨_, ⟨rules, state, bound, ends, ran, isBound, areTargets, rfl⟩, ?_⟩
          dsimp only at resolved
          split at resolved
          · rename_i error' isError
            cases resolved
            exact isError
          · cases resolved

/-- Rendering ends at every node of every grammar that is resolved.  Among these are the
grammars that are accepted, and those of which the error shows a node when they are refused.
What it shows is the whole text of the operand of a clause that loops. -/
theorem rendering_ends (builder : GrammarBuilder L) (cache : PatternCache) :
    (forall grammar, builder.ResolvesTo cache grammar -> grammar.RenderingEnds) ∧
      (forall built after, builder.build cache = (.ok built, after) ->
        builder.ResolvesTo cache built.grammar) ∧
      forall error text after, builder.build cache = (.error error, after) ->
        error.shownNode? = some text ->
          exists grammar, builder.ResolvesTo cache grammar ∧
            exists clause inner, clause ∈ grammar.nodes ∧ clause.looped? = some inner ∧
              grammar.Shows true inner text := by
  refine ⟨fun grammar resolves => resolves.ordered.renderingEnds, ?_, ?_⟩
  · intro built after accepted
    exact build_resolvesTo accepted
  · intro error text after refused isShown
    rcases build_refused refused isShown with ⟨grammar, resolves, invalid⟩
    rcases Grammar.validate_shows invalid isShown with ⟨clause, inner, member, loops, isText⟩
    have ends := resolves.ordered.renderingEnds.ends
    exact ⟨grammar, resolves, clause, inner, member, loops, (ends inner text).mpr isText⟩

/-- A list of items, each of which may hold such a list in turn, or nothing.  The list refers
to its items by another name for their rule. -/
def nestedListParsers : Construction (List (Definition plainText)) := do
  let list ← (← Parser.reference "entry" .text).many
  let entry ← Parser.reference "item" .text
  let item ← (← (← Parser.reference "list" (.list .text)).optional).slice
  return [⟨"list", .list .text, list⟩, ⟨"entry", .text, entry⟩, ⟨"item", .text, item⟩]

def nestedLists : GrammarBuilder plainText :=
  ⟨(nestedListParsers 0).1⟩

/-- The list and its items refer to each other, and two rules share the root 5.  It comes
after the list, 1, and is shown there by the name of the first of them.  The grammar is
refused since items may match nothing, and the error shows what is repeated. -/
theorem nestedLists_rendered :
    (exists grammar, nestedLists.ResolvesTo PatternCache.empty grammar ∧
        grammar.RenderingEnds ∧ grammar.Nests true 1 5 ∧
        grammar.describe 1 = "<entry>.repeat(0, Infinity)" ∧
        grammar.describe 5 = "Map(Optional(<list>))") ∧
      nestedLists.build PatternCache.empty =
        (.error (.nullableRepeat "Map(Optional(<list>))"), PatternCache.empty) ∧
      exists grammar, nestedLists.ResolvesTo PatternCache.empty grammar ∧
        exists clause inner, clause ∈ grammar.nodes ∧ clause.looped? = some inner ∧
          grammar.Shows true inner "Map(Optional(<list>))" := by
  have ends := nestedLists.rendering_ends PatternCache.empty
  have resolves : nestedLists.ResolvesTo PatternCache.empty _ :=
    ⟨_, _, _, _, rfl, rfl, rfl, rfl⟩
  refine ⟨⟨_, resolves, ends.1 _ resolves, ?_, rfl, rfl⟩, rfl, ends.2.2 _ _ _ rfl rfl⟩
  exact ⟨Or.inl rfl, _, rfl, List.mem_singleton.mpr rfl⟩

end GrammarBuilder
end SeedGrammar
