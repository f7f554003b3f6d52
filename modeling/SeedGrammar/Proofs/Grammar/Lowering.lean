import SeedGrammar.Grammar.Build
import SeedGrammar.Proofs.Correspondence
import SeedGrammar.Proofs.Grammar.Forest

namespace SeedGrammar

/-!
# What lowering leaves behind

A state of lowering represents the expressions whose keys have been placed:
the node of each is the same operator on the nodes of its operands.  Lowering
an expression keeps the nodes and keys that are there, adds those of
expressions within it, and answers with its node.

An expression is not within its own operands, so its key is still free when
they have been lowered.  This is the only place where it matters that keys are
coherent.
-/

variable {L : Signature}

/-! ## Clauses as they are lowered -/

/-- A leaf with its regular expression compiled, unless that cannot be read.
Empty literals are refused. -/
def Leaf.compiled? : Leaf L Unit -> Option (Leaf L PatternProgram)
  | exact literal => if Stream.isEmpty literal then none else some (.exact literal)
  | charset set label read => some (.charset set label read)
  | pattern source _ text =>
    (Pattern.compile? source).map fun program => .pattern source program text
  | empty => some .empty
  | eof => some .eof
  | fail message payload => some (.fail message payload)
  | custom name act => some (.custom name act)

/-- A clause as it is lowered, before its operands are.  Sequences and choices
without operands are refused. -/
def Clause.compiled? {α : Type} : Clause L Unit α -> Option (Clause L PatternProgram α)
  | leaf atom => atom.compiled?.map .leaf
  | map inner transform => some (.map inner transform)
  | update inner next => some (.update inner next)
  | sequence items gather => if items.isEmpty then none else some (.sequence items gather)
  | choice alts => if alts.isEmpty then none else some (.choice alts)
  | optional inner element => some (.optional inner element)
  | attempt inner => some (.attempt inner)
  | lookahead inner look negative => some (.lookahead inner look negative)
  | repeated inner element min max => some (.repeated inner element min max)
  | reference name expected target => some (.reference name expected target)
  | leftRecursion inner => some (.leftRecursion inner)

/-- A clause corresponds to the lowered one, leaf to compiled leaf. -/
theorem Clause.corresponds_compiled {α : Type} {clause : Clause L Unit α}
    {compiled : Clause L PatternProgram α} (isCompiled : clause.compiled? = some compiled) :
    clause.Corresponds (fun atom atom' => atom.compiled? = some atom') Eq compiled := by
  cases clause with
  | leaf atom =>
      rw [compiled?] at isCompiled
      rcases Option.map_eq_some_iff.mp isCompiled with ⟨atom', isAtom, rfl⟩
      exact .leaf isAtom
  | map inner transform =>
      cases isCompiled
      exact .map rfl
  | update inner next =>
      cases isCompiled
      exact .update rfl
  | sequence items gather =>
      rw [compiled?, Option.ite_none_left_eq_some] at isCompiled
      cases isCompiled.2
      exact .sequence (List.forall₂_same.mpr fun _ _ => rfl)
  | choice alts =>
      rw [compiled?, Option.ite_none_left_eq_some] at isCompiled
      cases isCompiled.2
      exact .choice (List.forall₂_same.mpr fun _ _ => rfl)
  | optional inner element =>
      cases isCompiled
      exact .optional rfl
  | attempt inner =>
      cases isCompiled
      exact .attempt rfl
  | lookahead inner look negative =>
      cases isCompiled
      exact .lookahead rfl rfl
  | repeated inner element min max =>
      cases isCompiled
      exact .repeated rfl
  | reference name expected target =>
      cases isCompiled
      exact .reference
  | leftRecursion inner =>
      cases isCompiled
      exact .leftRecursion rfl

theorem Clause.children_compiled {α : Type} {clause : Clause L Unit α}
    {compiled : Clause L PatternProgram α} (isCompiled : clause.compiled? = some compiled) :
    compiled.children = clause.children := by
  have children := (corresponds_compiled isCompiled).children
  rw [List.forall₂_eq_eq_eq] at children
  exact children.symm

theorem Clause.isReference_compiled {α : Type} {clause : Clause L Unit α}
    {compiled : Clause L PatternProgram α} (isCompiled : clause.compiled? = some compiled) :
    compiled.isReference = clause.isReference :=
  (corresponds_compiled isCompiled).isReference_eq.symm

/-- Whether a clause is no sequence or choice of nothing. -/
def Clause.NotEmpty {ρ α : Type} : Clause L ρ α -> Prop
  | sequence items _ => items ≠ []
  | choice alts => alts ≠ []
  | _ => True

theorem Clause.compiled_notEmpty {α : Type} {clause : Clause L Unit α}
    {compiled : Clause L PatternProgram α} (isCompiled : clause.compiled? = some compiled) :
    compiled.NotEmpty := by
  cases clause with
  | leaf atom =>
      rcases Option.map_eq_some_iff.mp isCompiled with ⟨atom', _, rfl⟩
      trivial
  | sequence items gather =>
      rw [compiled?, Option.ite_none_left_eq_some] at isCompiled
      cases isCompiled.2
      rintro rfl
      exact isCompiled.1 rfl
  | choice alts =>
      rw [compiled?, Option.ite_none_left_eq_some] at isCompiled
      cases isCompiled.2
      rintro rfl
      exact isCompiled.1 rfl
  | _ =>
      cases isCompiled
      trivial

/-- Whether a cache holds under each anchored text what is compiled from it. -/
def PatternCache.Sound (cache : PatternCache) : Prop :=
  forall source program, cache.get? (Pattern.anchored source) = some program ->
    Pattern.compile? source = some program

theorem PatternCache.empty_sound : PatternCache.empty.Sound := by
  intro source program found
  cases found

/-- Whatever the cache holds, its answer is what is compiled from the source. -/
theorem PatternCache.getOrCompile_sound {cache : PatternCache} (sound : cache.Sound)
    (source : String) :
    (cache.getOrCompile source).1 = Pattern.compile? source ∧
      (cache.getOrCompile source).2.Sound := by
  rw [getOrCompile]
  cases kept : cache.get? (Pattern.anchored source) with
  | some program => exact ⟨(sound source program kept).symm, sound⟩
  | none =>
      cases compiled : Pattern.compile? source with
      | none => exact ⟨rfl, sound⟩
      | some program =>
          refine ⟨rfl, ?_⟩
          intro other otherProgram found
          by_cases same : Pattern.anchored source = Pattern.anchored other
          · have first : some program = some otherProgram := by
              rw [<- found, get?, List.find?_cons, same, beq_self_eq_true, Option.map_some]
            rw [<- first, <- compiled, Pattern.compile?, Pattern.compile?, same]
          · apply sound other otherProgram
            rw [<- found, get?, get?, List.find?_cons, beq_false_of_ne same]

/-! ## Lowering that succeeds -/

namespace Lowering

variable {α β : Type}

/-- Whether lowering in one state comes to a result and leaves another state. -/
def Yields (lowering : Lowering L α) (state : LoweringState L) (result : α)
    (after : LoweringState L) : Prop :=
  lowering.run.run state = (.ok result, after)

theorem yields_pure {state after : LoweringState L} {value result : α} :
    (pure value : Lowering L α).Yields state result after ↔ result = value ∧ after = state := by
  constructor
  · intro yields
    cases yields
    exact ⟨rfl, rfl⟩
  · rintro ⟨rfl, rfl⟩
    rfl

theorem yields_bind {lowering : Lowering L α} {next : α -> Lowering L β}
    {state after : LoweringState L} {result : β} :
    (lowering >>= next).Yields state result after ↔
      exists middle place, lowering.Yields state middle place ∧
        (next middle).Yields place result after := by
  have runs : (lowering >>= next).run.run state =
      match lowering.run.run state with
      | (.ok middle, place) => (next middle).run.run place
      | (.error error, place) => (.error error, place) := by
    rw [ExceptT.run_bind, StateT.run_bind]
    rcases lowering.run.run state with ⟨outcome, place⟩
    cases outcome with
    | ok middle => rfl
    | error error => rfl
  unfold Yields
  rw [runs]
  rcases lowering.run.run state with ⟨outcome, place⟩
  cases outcome with
  | ok middle =>
      constructor
      · intro ends
        exact ⟨middle, place, rfl, ends⟩
      · rintro ⟨_, _, first, ends⟩
        cases first
        exact ends
  | error error =>
      constructor
      · intro ends
        cases ends
      · rintro ⟨_, _, first, _⟩
        cases first

/-- What is made of a result changes nothing. -/
theorem yields_return {lowering : Lowering L α} {f : α -> β} {state after : LoweringState L}
    {result : β} :
    (do return f (← lowering) : Lowering L β).Yields state result after ↔
      exists middle, lowering.Yields state middle after ∧ result = f middle := by
  constructor
  · intro yields
    rcases yields_bind.mp yields with ⟨middle, place, isMiddle, last⟩
    cases last
    exact ⟨middle, isMiddle, rfl⟩
  · rintro ⟨middle, isMiddle, rfl⟩
    exact yields_bind.mpr ⟨middle, after, isMiddle, rfl⟩

theorem not_yields_throw {error : GrammarError} {state after : LoweringState L} {result : α} :
    ¬(throw error : Lowering L α).Yields state result after := by
  intro yields
  cases yields

end Lowering

namespace LoweringState

/-- The node of a key, if it has one. -/
def placedAt? (state : LoweringState L) (key : Nat) : Option NodeId :=
  (state.placed.find? (·.1 == key)).map (·.2)

end LoweringState

theorem Lowering.yields_node? {key : Nat} {state after : LoweringState L}
    {found : Option NodeId} :
    (Lowering.node? key).Yields state found after ↔
      found = state.placedAt? key ∧ after = state := by
  constructor
  · intro yields
    cases yields
    exact ⟨rfl, rfl⟩
  · rintro ⟨rfl, rfl⟩
    rfl

theorem Lowering.yields_place {key : Nat} {clause : Clause L PatternProgram NodeId}
    {state after : LoweringState L} {id : NodeId} :
    (Lowering.place key clause).Yields state id after ↔
      id = state.nodes.length ∧
        after = { state with
          nodes := state.nodes ++ [clause], placed := (key, state.nodes.length) :: state.placed } := by
  constructor
  · intro yields
    cases yields
    exact ⟨rfl, rfl⟩
  · rintro ⟨rfl, rfl⟩
    rfl

namespace Lowering

variable {type : ValueType L.Kind} {key : Nat} {state after : LoweringState L} {id : NodeId}
  {inner : Expr L} {lowered : Clause L PatternProgram NodeId}

/-- An expression whose key has not been placed is new: its clause is lowered and placed. -/
theorem yields_new {clause : Clause L Unit (Expr L)} (unknown : state.placedAt? key = none) :
    (Lowering.expr (.node key clause)).Yields state id after ↔
      exists lowered middle, (Lowering.clause clause).Yields state lowered middle ∧
        (Lowering.place key lowered).Yields middle id after := by
  constructor
  · intro yields
    rcases yields_bind.mp yields with ⟨found, place, asked, yields⟩
    rcases yields_node?.mp asked with ⟨isFound, rfl⟩
    rw [unknown] at isFound
    subst isFound
    exact yields_bind.mp yields
  · intro yields
    refine yields_bind.mpr ⟨none, state, yields_node?.mpr ⟨unknown.symm, rfl⟩, ?_⟩
    exact yields_bind.mpr yields

theorem yields_leaf {atom : Leaf L Unit} :
    (Lowering.clause (.leaf atom)).Yields state lowered after ↔
      exists atom', (Lowering.leaf atom).Yields state atom' after ∧ lowered = .leaf atom' :=
  yields_return

theorem yields_map {transform : Transform L} :
    (Lowering.clause (.map inner transform)).Yields state lowered after ↔
      exists operand, (Lowering.expr inner).Yields state operand after ∧
        lowered = .map operand transform :=
  yields_return

theorem yields_repeated {min : Nat} {max : Option Nat} :
    (Lowering.clause (.repeated inner type min max)).Yields state lowered after ↔
      exists operand, (Lowering.expr inner).Yields state operand after ∧
        lowered = .repeated operand type min max :=
  yields_return

theorem yields_leftRecursion :
    (Lowering.clause (.leftRecursion inner)).Yields state lowered after ↔
      exists operand, (Lowering.expr inner).Yields state operand after ∧
        lowered = .leftRecursion operand :=
  yields_return

theorem yields_choice {first : Expr L} {rest : List (Expr L)} :
    (Lowering.clause (.choice (first :: rest))).Yields state lowered after ↔
      exists operand middle operands, (Lowering.expr first).Yields state operand middle ∧
        (Lowering.exprs rest).Yields middle operands after ∧
        lowered = .choice (operand :: operands) := by
  constructor
  · intro yields
    rcases yields_bind.mp yields with ⟨operand, middle, isFirst, later⟩
    rcases yields_bind.mp later with ⟨operands, place, areRest, last⟩
    cases last
    exact ⟨operand, middle, operands, isFirst, areRest, rfl⟩
  · rintro ⟨operand, middle, operands, isFirst, areRest, rfl⟩
    exact yields_bind.mpr ⟨operand, middle, isFirst, yields_bind.mpr ⟨operands, after, areRest, rfl⟩⟩

end Lowering

/-- A source is compiled to what the cache gives for it, and only the cache changes. -/
theorem Lowering.yields_compile {source : String} {program : PatternProgram}
    {state after : LoweringState L} :
    (Lowering.compile source).Yields state program after ↔
      exists cache, state.cache.getOrCompile source = (some program, cache) ∧
        after = { state with cache := cache } := by
  constructor
  · intro yields
    rw [Lowering.compile] at yields
    rcases yields_bind.mp yields with ⟨read, place, first, rest⟩
    cases first
    cases asked : state.cache.getOrCompile source with
    | mk pattern cache =>
        simp only [asked] at rest
        rcases yields_bind.mp rest with ⟨_, _, second, last⟩
        cases second
        cases pattern with
        | none => exact absurd last not_yields_throw
        | some found =>
            cases last
            exact ⟨cache, rfl, rfl⟩
  · rintro ⟨cache, asked, rfl⟩
    refine yields_bind.mpr ⟨state, state, rfl, ?_⟩
    simp only [asked]
    rfl

theorem Lowering.compile_yields {source : String} {program : PatternProgram}
    {state after : LoweringState L} (sound : state.cache.Sound)
    (yields : (Lowering.compile source).Yields state program after) :
    Pattern.compile? source = some program ∧ after.cache.Sound := by
  have cached := PatternCache.getOrCompile_sound sound source
  rcases yields_compile.mp yields with ⟨cache, asked, rfl⟩
  rw [asked] at cached
  exact ⟨cached.1.symm, cached.2⟩

theorem Lowering.yields_pattern {source : String} {text : L.Input -> String}
    {lowered : Leaf L PatternProgram} {state after : LoweringState L} :
    (Lowering.leaf (.pattern source () text)).Yields state lowered after ↔
      exists program, (Lowering.compile source).Yields state program after ∧
        lowered = .pattern source program text :=
  yields_return

/-- On its own a regular expression is lowered if the cache gives a program for it. -/
theorem Lowering.yields_pattern_start {source : String} {text : L.Input -> String}
    {lowered : Leaf L PatternProgram} {cache after : PatternCache} :
    (Lowering.leaf (.pattern source () text)).Yields (start cache) lowered (start after) ↔
      exists program, cache.getOrCompile source = (some program, after) ∧
        lowered = .pattern source program text := by
  constructor
  · intro yields
    rcases yields_pattern.mp yields with ⟨program, isProgram, rfl⟩
    rcases yields_compile.mp isProgram with ⟨later, asked, isAfter⟩
    cases isAfter
    exact ⟨program, asked, rfl⟩
  · rintro ⟨program, asked, rfl⟩
    exact yields_pattern.mpr ⟨program, yields_compile.mpr ⟨after, asked, rfl⟩, rfl⟩

/-- By lowering a leaf nothing is placed. -/
theorem Lowering.leaf_places {atom : Leaf L Unit} {atom' : Leaf L PatternProgram}
    {state after : LoweringState L} (yields : (Lowering.leaf atom).Yields state atom' after) :
    after.nodes = state.nodes ∧ after.placed = state.placed := by
  cases atom with
  | exact literal =>
      rw [Lowering.leaf] at yields
      split at yields
      · exact absurd yields not_yields_throw
      · cases yields
        exact ⟨rfl, rfl⟩
  | pattern source program text =>
      rcases yields_pattern.mp yields with ⟨program, isProgram, _⟩
      rcases yields_compile.mp isProgram with ⟨cache, _, rfl⟩
      exact ⟨rfl, rfl⟩
  | _ =>
      cases yields
      exact ⟨rfl, rfl⟩

/-- A leaf is lowered to the compiled leaf, and only the cache changes. -/
theorem Lowering.leaf_yields {atom : Leaf L Unit} {atom' : Leaf L PatternProgram}
    {state after : LoweringState L} (sound : state.cache.Sound)
    (yields : (Lowering.leaf atom).Yields state atom' after) :
    atom.compiled? = some atom' ∧ after.nodes = state.nodes ∧ after.placed = state.placed ∧
      after.cache.Sound := by
  suffices known : atom.compiled? = some atom' ∧ after.cache.Sound from
    ⟨known.1, (leaf_places yields).1, (leaf_places yields).2, known.2⟩
  cases atom with
  | exact literal =>
      rw [Lowering.leaf] at yields
      split at yields
      · exact absurd yields not_yields_throw
      · rename_i notEmpty
        cases yields
        exact ⟨if_neg notEmpty, sound⟩
  | pattern source program text =>
      rcases yields_pattern.mp yields with ⟨program, isProgram, rfl⟩
      have known := compile_yields sound isProgram
      refine ⟨?_, known.2⟩
      rw [Leaf.compiled?, known.1, Option.map_some]
  | _ =>
      cases yields
      exact ⟨rfl, sound⟩

/-! ## The invariant -/

/-- Whether an expression has been placed at a node. -/
def LoweringState.Places (state : LoweringState L) (expr : Expr L) (id : NodeId) : Prop :=
  state.placedAt? expr.key = some id

/-- A node is the lowered form of an expression: the same operator, on the
nodes of the operands. -/
def LoweringState.Holds (state : LoweringState L) (expr : Expr L) (id : NodeId) : Prop :=
  exists compiled clause, expr.clause.compiled? = some compiled ∧
    state.nodes[id]? = some clause ∧
    compiled.Corresponds Eq state.Places clause

/-- A state holds the expressions whose keys it has placed, each at a node of
its own, and has no other nodes. -/
structure LoweringState.Represents (state : LoweringState L) (among : Expr L -> Prop) : Prop where
  cache : state.cache.Sound
  bound : forall key id, state.placedAt? key = some id -> id < state.nodes.length
  distinct : forall key key' id, state.placedAt? key = some id ->
    state.placedAt? key' = some id -> key = key'
  holds : forall key id, state.placedAt? key = some id ->
    exists expr, among expr ∧ expr.key = key ∧ state.Holds expr id
  filled : forall id, id < state.nodes.length -> exists expr, among expr ∧ state.Places expr id

/-- Progress of lowering: what was there stays, and what is new is within some
expressions. -/
structure LoweringState.Progress (state after : LoweringState L) (roots : List (Expr L)) :
    Prop where
  nodes : forall (id : NodeId) clause, state.nodes[id]? = some clause ->
    after.nodes[id]? = some clause
  placed : forall key id, state.placedAt? key = some id -> after.placedAt? key = some id
  within : forall key id, after.placedAt? key = some id ->
    state.placedAt? key = some id ∨ exists root, root ∈ roots ∧
      exists expr : Expr L, expr.Within root ∧ expr.key = key

namespace LoweringState

variable {among : Expr L -> Prop} {state middle after : LoweringState L}

theorem Progress.none (state : LoweringState L) (roots : List (Expr L)) :
    state.Progress state roots :=
  ⟨fun _ _ => id, fun _ _ => id, fun _ _ => Or.inl⟩

theorem Progress.sameNodes (roots : List (Expr L)) (nodes : after.nodes = state.nodes)
    (placed : after.placed = state.placed) : state.Progress after roots := by
  rcases after with ⟨_, _, cache⟩
  cases nodes
  cases placed
  exact ⟨fun _ _ => id, fun _ _ => id, fun _ _ => Or.inl⟩

theorem Progress.trans {first rest all : List (Expr L)} (early : state.Progress middle first)
    (late : middle.Progress after rest)
    (firstWithin : forall root, root ∈ first -> exists outer, outer ∈ all ∧ root.Within outer)
    (restWithin : forall root, root ∈ rest -> exists outer, outer ∈ all ∧ root.Within outer) :
    state.Progress after all where
  nodes id clause found := late.nodes id clause (early.nodes id clause found)
  placed key id found := late.placed key id (early.placed key id found)
  within key id found := by
    rcases late.within key id found with old | ⟨root, member, expr, inside, sameKey⟩
    · rcases early.within key id old with older | ⟨root, member, expr, inside, sameKey⟩
      · exact Or.inl older
      · rcases firstWithin root member with ⟨outer, isOuter, within⟩
        exact Or.inr ⟨outer, isOuter, expr, inside.trans within, sameKey⟩
    · rcases restWithin root member with ⟨outer, isOuter, within⟩
      exact Or.inr ⟨outer, isOuter, expr, inside.trans within, sameKey⟩

theorem Progress.cons {first : Expr L} {rest : List (Expr L)}
    (early : state.Progress middle [first]) (late : middle.Progress after rest) :
    state.Progress after (first :: rest) := by
  apply early.trans late
  · intro root member
    rw [List.mem_singleton.mp member]
    exact ⟨first, List.mem_cons_self .., .self first⟩
  · intro root member
    exact ⟨root, List.mem_cons_of_mem _ member, .self root⟩

theorem Progress.places {roots : List (Expr L)} (progress : state.Progress after roots)
    (expr : Expr L) (id : NodeId) (places : state.Places expr id) : after.Places expr id :=
  progress.placed expr.key id places

/-- Only nodes and keys matter for what a state holds. -/
theorem Represents.sameNodes (represents : state.Represents among)
    (nodes : after.nodes = state.nodes) (placed : after.placed = state.placed)
    (sound : after.cache.Sound) : after.Represents among := by
  rcases after with ⟨_, _, cache⟩
  cases nodes
  cases placed
  exact ⟨sound, represents.bound, represents.distinct, represents.holds, represents.filled⟩

theorem Holds.progress {expr : Expr L} {id : NodeId} {roots : List (Expr L)}
    (holds : state.Holds expr id) (progress : state.Progress after roots) :
    after.Holds expr id := by
  rcases holds with ⟨compiled, clause, isCompiled, found, corresponds⟩
  exact ⟨compiled, clause, isCompiled, progress.nodes id clause found,
    corresponds.imp fun child place _ => progress.places child place⟩

theorem placedAt?_place (key other : Nat) (clause : Clause L PatternProgram NodeId) :
    placedAt? { state with
      nodes := state.nodes ++ [clause], placed := (key, state.nodes.length) :: state.placed }
      other = if key = other then some state.nodes.length else state.placedAt? other := by
  by_cases same : key = other
  · rw [if_pos same, placedAt?, List.find?_cons, same, beq_self_eq_true, Option.map_some]
  · rw [if_neg same, placedAt?, placedAt?, List.find?_cons, beq_false_of_ne same]

/-- Placing an expression whose key is free and whose operands are placed. -/
theorem Represents.place (represents : state.Represents among) (expr : Expr L)
    (member : among expr) (free : state.placedAt? expr.key = none)
    {compiled : Clause L PatternProgram (Expr L)} {clause : Clause L PatternProgram NodeId}
    (isCompiled : expr.clause.compiled? = some compiled)
    (corresponds : compiled.Corresponds Eq state.Places clause)
    (isAfter : after = { state with
      nodes := state.nodes ++ [clause],
      placed := (expr.key, state.nodes.length) :: state.placed }) :
    after.Represents among ∧ state.Progress after [expr] ∧
      after.placedAt? expr.key = some state.nodes.length := by
  have lookup : forall key, after.placedAt? key =
      if expr.key = key then some state.nodes.length else state.placedAt? key := by
    intro key
    rw [isAfter]
    exact placedAt?_place expr.key key clause
  have length : after.nodes.length = state.nodes.length + 1 := by
    rw [isAfter, List.length_append, List.length_singleton]
  have progress : state.Progress after [expr] := by
    constructor
    · intro id clause found
      rw [isAfter]
      exact List.getElem?_append_left (List.getElem?_eq_some_iff.mp found).1 |>.trans found
    · intro key id found
      rw [lookup]
      by_cases same : expr.key = key
      · rw [<- same, free] at found
        cases found
      · rw [if_neg same]
        exact found
    · intro key id found
      rw [lookup] at found
      by_cases same : expr.key = key
      · exact Or.inr ⟨expr, List.mem_singleton.mpr rfl, expr, .self expr, same⟩
      · rw [if_neg same] at found
        exact Or.inl found
  have own : after.Holds expr state.nodes.length := by
    refine ⟨compiled, clause, isCompiled, ?_,
      corresponds.imp fun child place _ => progress.places child place⟩
    rw [isAfter]
    exact List.getElem?_concat_length
  have ownPlace : after.placedAt? expr.key = some state.nodes.length := by
    rw [lookup, if_pos rfl]
  refine ⟨⟨?_, ?_, ?_, ?_, ?_⟩, progress, ownPlace⟩
  · rw [isAfter]
    exact represents.cache
  · intro key id found
    rw [lookup] at found
    rw [length]
    by_cases same : expr.key = key
    · rw [if_pos same] at found
      cases found
      exact Nat.lt_succ_self _
    · rw [if_neg same] at found
      exact Nat.lt_succ_of_lt (represents.bound key id found)
  · intro key key' id found found'
    rw [lookup] at found found'
    by_cases same : expr.key = key
    · rw [if_pos same] at found
      cases found
      by_cases same' : expr.key = key'
      · exact same.symm.trans same'
      · rw [if_neg same'] at found'
        exact absurd (represents.bound key' _ found') (Nat.lt_irrefl _)
    · rw [if_neg same] at found
      by_cases same' : expr.key = key'
      · rw [if_pos same'] at found'
        cases found'
        exact absurd (represents.bound key _ found) (Nat.lt_irrefl _)
      · rw [if_neg same'] at found'
        exact represents.distinct key key' id found found'
  · intro key id found
    rw [lookup] at found
    by_cases same : expr.key = key
    · rw [if_pos same] at found
      cases found
      exact ⟨expr, member, same, own⟩
    · rw [if_neg same] at found
      rcases represents.holds key id found with ⟨older, isMember, sameKey, holds⟩
      exact ⟨older, isMember, sameKey, holds.progress progress⟩
  · intro id inRange
    rw [length] at inRange
    rcases Nat.lt_succ_iff_lt_or_eq.mp inRange with old | isLast
    · rcases represents.filled id old with ⟨older, isMember, places⟩
      exact ⟨older, isMember, progress.placed older.key id places⟩
    · rw [isLast]
      exact ⟨expr, member, ownPlace⟩

/-- What is placed is held. -/
theorem Represents.holds_of_places (represents : state.Represents among)
    (coherent : Coherent among) {expr : Expr L} (member : among expr) {id : NodeId}
    (places : state.Places expr id) : state.Holds expr id := by
  rcases represents.holds expr.key id places with ⟨held, isMember, sameKey, holds⟩
  rwa [coherent held expr isMember member sameKey] at holds

/-- Everything within a placed expression is placed. -/
theorem Represents.places_within (represents : state.Represents among)
    (coherent : Coherent among) (closed : OperandClosed among) {expr root : Expr L}
    (within : expr.Within root) (member : among root) {id : NodeId}
    (places : state.Places root id) : exists place, state.Places expr place := by
  induction within generalizing id with
  | self => exact ⟨id, places⟩
  | @operand child root isChild _ inductionHypothesis =>
      rcases represents.holds_of_places coherent member places with
        ⟨compiled, clause, isCompiled, _, corresponds⟩
      have childPlaced : exists place, state.Places child place := by
        rw [<- Clause.children_compiled isCompiled] at isChild
        rcases List.mem_iff_getElem.mp isChild with ⟨index, bound, rfl⟩
        have related := corresponds.children
        exact ⟨_, related.get bound (related.length_eq ▸ bound)⟩
      rcases childPlaced with ⟨place, childPlaces⟩
      exact inductionHypothesis (closed root child member isChild) childPlaces

end LoweringState

/-! ## Lowering preserves the invariant -/

namespace Lowering

variable {among : Expr L -> Prop} {β : Type}

/-- Whether lowering keeps the invariant, makes progress within some
expressions only, and comes to a result with some property. -/
def Lowers (among : Expr L -> Prop) (lowering : Lowering L β) (roots : List (Expr L))
    (post : LoweringState L -> β -> Prop) : Prop :=
  forall state result after, state.Represents among -> lowering.Yields state result after ->
    after.Represents among ∧ state.Progress after roots ∧ post after result

/-- Whether lowering an expression comes to its node. -/
def LowersExpr (among : Expr L -> Prop) (expr : Expr L) : Prop :=
  Lowers among (Lowering.expr expr) [expr] fun after id => after.Places expr id

/-- Whether the lowered form of a clause is the same operator on the nodes of
the operands. -/
def LowersClause (among : Expr L -> Prop) (clause : Clause L Unit (Expr L)) : Prop :=
  Lowers among (Lowering.clause clause) clause.children fun after lowered =>
    exists compiled, clause.compiled? = some compiled ∧
      compiled.Corresponds Eq after.Places lowered

theorem exprs_lowers {items : List (Expr L)}
    (each : forall item, item ∈ items -> LowersExpr among item) :
    Lowers among (Lowering.exprs items) items fun after ids =>
      List.Forall₂ after.Places items ids := by
  induction items with
  | nil =>
      intro state ids after represents yields
      rcases yields_pure.mp yields with ⟨rfl, rfl⟩
      exact ⟨represents, .none _ _, .nil⟩
  | cons first rest inductionHypothesis =>
      intro state ids after represents yields
      rcases yields_bind.mp yields with ⟨id, middle, firstYields, yields⟩
      rcases yields_bind.mp yields with ⟨others, last, restYields, yields⟩
      rcases yields_pure.mp yields with ⟨rfl, rfl⟩
      rcases each first (List.mem_cons_self ..) state id middle represents firstYields with
        ⟨represents, early, places⟩
      rcases inductionHypothesis (fun item member => each item (List.mem_cons_of_mem _ member))
          middle others after represents restYields with ⟨represents, late, placed⟩
      exact ⟨represents, early.cons late, .cons (late.places first id places) placed⟩

/-- A clause with one operand. -/
theorem unary_lowers {inner : Expr L} (lowers : LowersExpr among inner)
    {clause : Clause L Unit (Expr L)} {compiled : Clause L PatternProgram (Expr L)}
    (children : clause.children = [inner]) (isCompiled : clause.compiled? = some compiled)
    (build : NodeId -> Clause L PatternProgram NodeId)
    (isLowering : Lowering.clause clause = do return build (← Lowering.expr inner))
    (corresponds : forall (places : Expr L -> NodeId -> Prop) id, places inner id ->
      compiled.Corresponds Eq places (build id)) : LowersClause among clause := by
  intro state result after represents yields
  rw [isLowering] at yields
  rcases yields_bind.mp yields with ⟨id, middle, innerYields, yields⟩
  rcases yields_pure.mp yields with ⟨rfl, rfl⟩
  rcases lowers state id after represents innerYields with ⟨represents, progress, places⟩
  rw [children]
  exact ⟨represents, progress, compiled, isCompiled, corresponds after.Places id places⟩

/-- A clause with operands in a list that is not empty. -/
theorem nonempty_lowers {first : Expr L} {rest : List (Expr L)}
    (each : forall item, item ∈ first :: rest -> LowersExpr among item)
    {clause : Clause L Unit (Expr L)} {compiled : Clause L PatternProgram (Expr L)}
    (children : clause.children = first :: rest) (isCompiled : clause.compiled? = some compiled)
    (build : List NodeId -> Clause L PatternProgram NodeId)
    (isLowering : Lowering.clause clause = do
      let first ← Lowering.expr first
      let rest ← Lowering.exprs rest
      return build (first :: rest))
    (corresponds : forall (places : Expr L -> NodeId -> Prop) ids,
      List.Forall₂ places (first :: rest) ids -> compiled.Corresponds Eq places (build ids)) :
    LowersClause among clause := by
  intro state result after represents yields
  rw [isLowering] at yields
  rcases yields_bind.mp yields with ⟨id, middle, firstYields, yields⟩
  rcases yields_bind.mp yields with ⟨others, last, restYields, yields⟩
  rcases yields_pure.mp yields with ⟨rfl, rfl⟩
  have all : (Lowering.exprs (first :: rest)).Yields state (id :: others) after := by
    refine yields_bind.mpr ⟨id, middle, firstYields, ?_⟩
    exact yields_bind.mpr ⟨others, after, restYields, rfl⟩
  rcases exprs_lowers each state _ after represents all with ⟨represents, progress, places⟩
  rw [children]
  exact ⟨represents, progress, compiled, isCompiled, corresponds after.Places _ places⟩

theorem clause_lowers {clause : Clause L Unit (Expr L)}
    (each : forall child, child ∈ clause.children -> LowersExpr among child) :
    LowersClause among clause := by
  have alone : forall inner : Expr L, inner ∈ [inner] := fun inner => List.mem_singleton.mpr rfl
  cases clause with
  | leaf atom =>
      intro state result after represents yields
      rcases yields_bind.mp yields with ⟨atom', middle, leafYields, yields⟩
      rcases yields_pure.mp yields with ⟨rfl, rfl⟩
      rcases leaf_yields represents.cache leafYields with ⟨isCompiled, nodes, placed, sound⟩
      refine ⟨represents.sameNodes nodes placed sound, .sameNodes _ nodes placed,
        .leaf atom', ?_, .leaf rfl⟩
      rw [Clause.compiled?, isCompiled, Option.map_some]
  | map inner transform =>
      exact unary_lowers (each inner (alone inner)) rfl rfl (.map · transform) rfl
        fun _ _ => .map
  | update inner next =>
      exact unary_lowers (each inner (alone inner)) rfl rfl (.update · next) rfl
        fun _ _ => .update
  | sequence items gather =>
      cases items with
      | nil =>
          intro state result after _ yields
          exact absurd yields not_yields_throw
      | cons first rest =>
          exact nonempty_lowers each rfl rfl (.sequence · gather) rfl fun _ _ => .sequence
  | choice alts =>
      cases alts with
      | nil =>
          intro state result after _ yields
          exact absurd yields not_yields_throw
      | cons first rest =>
          exact nonempty_lowers each rfl rfl .choice rfl fun _ _ => .choice
  | optional inner element =>
      exact unary_lowers (each inner (alone inner)) rfl rfl (.optional · element) rfl
        fun _ _ => .optional
  | attempt inner =>
      exact unary_lowers (each inner (alone inner)) rfl rfl .attempt rfl fun _ _ => .attempt
  | lookahead inner look negative =>
      intro state result after represents yields
      rcases yields_bind.mp yields with ⟨id, middle, innerYields, yields⟩
      rcases yields_bind.mp yields with ⟨seen, last, lookYields, yields⟩
      rcases yields_pure.mp yields with ⟨rfl, rfl⟩
      have both : (Lowering.exprs [inner, look]).Yields state [id, seen] after := by
        refine yields_bind.mpr ⟨id, middle, innerYields, ?_⟩
        refine yields_bind.mpr ⟨[seen], after, ?_, rfl⟩
        exact yields_bind.mpr ⟨seen, after, lookYields, rfl⟩
      rcases exprs_lowers each state _ after represents both with ⟨represents, progress, places⟩
      cases places with
      | cons first rest =>
          cases rest with
          | cons second _ =>
              exact ⟨represents, progress, .lookahead inner look negative, rfl,
                .lookahead first second⟩
  | repeated inner element min max =>
      exact unary_lowers (each inner (alone inner)) rfl rfl (.repeated · element min max) rfl
        fun _ _ => .repeated
  | reference name expected target =>
      intro state result after represents yields
      rcases yields_pure.mp yields with ⟨rfl, rfl⟩
      exact ⟨represents, .none _ _, .reference name expected target, rfl, .reference⟩
  | leftRecursion inner =>
      exact unary_lowers (each inner (alone inner)) rfl rfl .leftRecursion rfl
        fun _ _ => .leftRecursion

theorem expr_lowers (coherent : Coherent among) (closed : OperandClosed among) (expr : Expr L)
    (member : among expr) : LowersExpr among expr := by
  induction expr with
  | node key clause inductionHypothesis =>
      intro state id after represents yields
      rcases yields_bind.mp yields with ⟨found, middle, asked, yields⟩
      rcases yields_node?.mp asked with ⟨rfl, rfl⟩
      cases placed : middle.placedAt? key with
      | some old =>
          rw [placed] at yields
          rcases yields_pure.mp yields with ⟨rfl, rfl⟩
          exact ⟨represents, .sameNodes _ rfl rfl, placed⟩
      | none =>
          rw [placed] at yields
          rcases yields_bind.mp yields with ⟨lowered, last, clauseYields, yields⟩
          rcases yields_place.mp yields with ⟨rfl, isAfter⟩
          have operands : forall child, child ∈ clause.children -> among child :=
            fun child isChild => closed (.node key clause) child member isChild
          have each : forall child, child ∈ clause.children -> LowersExpr among child :=
            fun child isChild => inductionHypothesis child isChild (operands child isChild)
          rcases clause_lowers each middle lowered last represents clauseYields with
            ⟨represents, early, compiled, isCompiled, corresponds⟩
          have free : last.placedAt? key = none := by
            cases late : last.placedAt? key with
            | none => rfl
            | some id =>
                rcases early.within key id late with old | ⟨child, isChild, inner, within, sameKey⟩
                · rw [placed] at old
                  cases old
                · have same := coherent inner (.node key clause)
                    (closed.within within (operands child isChild)) member sameKey
                  rw [same] at within
                  exact absurd within (Expr.not_within_child isChild)
          rcases represents.place (.node key clause) member free isCompiled corresponds
              isAfter with ⟨represents, own, places⟩
          refine ⟨represents, ?_, places⟩
          apply early.trans own
          · intro child isChild
            exact ⟨.node key clause, List.mem_singleton.mpr rfl,
              Expr.within_of_mem_children isChild⟩
          · intro root isRoot
            exact ⟨root, isRoot, .self root⟩

end Lowering

namespace GrammarBuilder

variable {among : Expr L -> Prop}

/-- Whether a rule has the name and the type of a definition and starts at the
node of its expression. -/
structure Lowered (state : LoweringState L) (definition : Definition L) (rule : Rule L) :
    Prop where
  name : rule.name = definition.name
  type : rule.type = definition.type
  root : state.Places definition.parser.expr rule.root

theorem lowerRules_lowers (coherent : Coherent among) (closed : OperandClosed among)
    {definitions : List (Definition L)}
    (member : forall definition, definition ∈ definitions -> among definition.parser.expr) :
    Lowering.Lowers among (lowerRules definitions)
      (definitions.map fun definition => definition.parser.expr)
      fun after rules => List.Forall₂ (Lowered after) definitions rules := by
  induction definitions with
  | nil =>
      intro state rules after represents yields
      rw [lowerRules] at yields
      rcases Lowering.yields_pure.mp yields with ⟨rfl, rfl⟩
      exact ⟨represents, .sameNodes _ rfl rfl, .nil⟩
  | cons definition rest inductionHypothesis =>
      intro state rules after represents yields
      rw [lowerRules] at yields
      rcases Lowering.yields_bind.mp yields with ⟨root, middle, firstYields, yields⟩
      rcases Lowering.yields_bind.mp yields with ⟨others, last, restYields, yields⟩
      rcases Lowering.yields_pure.mp yields with ⟨rfl, rfl⟩
      rcases Lowering.expr_lowers coherent closed definition.parser.expr
          (member definition (List.mem_cons_self ..)) state root middle represents firstYields with
        ⟨represents, early, places⟩
      rcases inductionHypothesis (fun other isOther => member other (List.mem_cons_of_mem _ isOther))
          middle others after represents restYields with ⟨represents, late, lowered⟩
      exact ⟨represents, early.cons late, .cons ⟨rfl, rfl, late.places _ root places⟩ lowered⟩

/-- What lowering a whole grammar leaves behind. -/
structure LoweredRules (builder : GrammarBuilder L) (state : LoweringState L)
    (rules : List (Rule L)) : Prop where
  represents : state.Represents builder.Contains
  rules : List.Forall₂ (Lowered state) builder.definitions rules
  placed : forall expr, builder.Contains expr -> exists id, state.Places expr id

theorem loweredRules_of_yields {builder : GrammarBuilder L}
    (coherent : Coherent builder.Contains) {cache : PatternCache} (sound : cache.Sound)
    {rules : List (Rule L)} {state : LoweringState L}
    (yields : (lowerRules builder.definitions).Yields (Lowering.start cache) rules state) :
    builder.LoweredRules state rules := by
  have closed := builder.contains_operandClosed
  have started : (Lowering.start cache : LoweringState L).Represents builder.Contains := by
    refine ⟨sound, ?_, ?_, ?_, ?_⟩
    · intro key id found
      cases found
    · intro key key' id found
      cases found
    · intro key id found
      cases found
    · intro id inRange
      cases inRange
  rcases lowerRules_lowers coherent closed (fun _ => contains_root) _ rules state started yields
    with ⟨represents, _, lowered⟩
  refine ⟨represents, lowered, ?_⟩
  rintro expr ⟨definition, isDefinition, within⟩
  rcases List.mem_iff_getElem.mp isDefinition with ⟨index, bound, rfl⟩
  have root := (lowered.get bound (lowered.length_eq ▸ bound)).root
  exact represents.places_within coherent closed within (contains_root isDefinition) root

end GrammarBuilder
end SeedGrammar
