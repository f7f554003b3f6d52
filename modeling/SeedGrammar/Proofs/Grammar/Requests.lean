import SeedGrammar.Proofs.Grammar.Resolution

namespace SeedGrammar

/-!
# Building only asks the cache

Whether a grammar is accepted or refused, building it changes the cache by asking for
regular expressions and in no other way.  What it comes to does not depend on what the
cache holds, as long as the cache is sound, `GrammarBuilder.buildsAfresh`.

Lowering may stop anywhere.  But a regular expression that can be read becomes a node
at once.  So what a build has asked for are the sources of the nodes that it has placed
when it stops.  The lemmas about lowering follow its parts, and carry along the regular
expressions that have been compiled and are not placed yet.
-/

variable {L : Signature}

/-- The source and the program of a regular expression. -/
def Leaf.patterns : Leaf L PatternProgram -> List (String × PatternProgram)
  | pattern source program _ => [(source, program)]
  | _ => []

def Clause.patterns {α : Type} : Clause L PatternProgram α -> List (String × PatternProgram)
  | leaf atom => atom.patterns
  | _ => []

/-- The regular expressions among some nodes, with their programs, in order. -/
def nodePatterns (nodes : List (Clause L PatternProgram NodeId)) : List (String × PatternProgram) :=
  nodes.flatMap Clause.patterns

/-- Whether programs are what is compiled from the sources that they come with. -/
def Faithful (patterns : List (String × PatternProgram)) : Prop :=
  forall source program, (source, program) ∈ patterns -> Pattern.compile? source = some program

theorem nodePatterns_append (first second : List (Clause L PatternProgram NodeId)) :
    nodePatterns (first ++ second) = nodePatterns first ++ nodePatterns second :=
  List.flatMap_append

theorem faithful_nil : Faithful [] := by
  intro source program member
  cases member

theorem Faithful.append {first second : List (String × PatternProgram)} (early : Faithful first)
    (late : Faithful second) : Faithful (first ++ second) := by
  intro source program member
  rcases List.mem_append.mp member with isFirst | isSecond
  · exact early source program isFirst
  · exact late source program isSecond

namespace PatternCache

/-- The cache after it has been asked for some regular expressions in turn. -/
def requested (cache : PatternCache) (sources : List String) : PatternCache :=
  sources.foldl (fun cache source => (cache.getOrCompile source).2) cache

theorem requested_append (cache : PatternCache) (first second : List String) :
    cache.requested (first ++ second) = (cache.requested first).requested second :=
  List.foldl_append

theorem requested_sound {cache : PatternCache} (sound : cache.Sound) (sources : List String) :
    (cache.requested sources).Sound := by
  induction sources generalizing cache with
  | nil => exact sound
  | cons source rest inductionHypothesis =>
      exact inductionHypothesis (getOrCompile_sound sound source).2

/-- A source that cannot be read is not held by a sound cache, and changes nothing. -/
theorem getOrCompile_invalid {cache : PatternCache} {source : String} (sound : cache.Sound)
    (invalid : Pattern.compile? source = none) :
    cache.get? (Pattern.anchored source) = none ∧ (cache.getOrCompile source).2 = cache := by
  cases held : cache.get? (Pattern.anchored source) with
  | some program =>
      rw [sound source program held] at invalid
      cases invalid
  | none =>
      rw [getOrCompile, held, invalid]
      exact ⟨rfl, rfl⟩

end PatternCache

/-! ## Lowering with any cache -/

namespace Lowering

variable {α β : Type} {carried : List (String × PatternProgram)}

/-- What an outcome has in it, if it is a result. -/
def pendingIn (pending : α -> List (String × PatternProgram)) :
    Except GrammarError α -> List (String × PatternProgram)
  | .ok result => pending result
  | .error _ => []

/-- What lowering comes to with every sound cache: an outcome, new nodes, and regular
expressions that the cache is asked for.  Together with those that were carried along
these are the ones of the new nodes and of the outcome. -/
structure Fills (lowering : Lowering L α) (carried : List (String × PatternProgram))
    (pending : α -> List (String × PatternProgram)) (nodes : List (Clause L PatternProgram NodeId))
    (placed : List (Nat × NodeId)) (outcome : Except GrammarError α)
    (new : List (Clause L PatternProgram NodeId)) (placed' : List (Nat × NodeId))
    (asked : List (String × PatternProgram)) : Prop where
  faithful : Faithful asked
  held : carried ++ asked = nodePatterns new ++ pendingIn pending outcome
  runs : forall cache : PatternCache, cache.Sound -> lowering.run.run ⟨nodes, placed, cache⟩ =
    (outcome, ⟨nodes ++ new, placed', cache.requested (asked.map (·.1))⟩)

/-- Whether lowering comes to the same with every sound cache. -/
def IgnoresCache (lowering : Lowering L α) (carried : List (String × PatternProgram))
    (pending : α -> List (String × PatternProgram)) : Prop :=
  forall nodes placed, exists outcome new placed' asked,
    lowering.Fills carried pending nodes placed outcome new placed' asked

variable {pending : α -> List (String × PatternProgram)}
  {later : β -> List (String × PatternProgram)}

theorem ignoresCache_pure {result : α} (isPending : pending result = carried) :
    (pure result : Lowering L α).IgnoresCache carried pending := by
  intro nodes placed
  refine ⟨.ok result, [], placed, [], faithful_nil, ?_, ?_⟩
  · exact (List.append_nil _).trans isPending.symm
  · intro cache _
    rw [List.append_nil]
    rfl

theorem ignoresCache_throw (error : GrammarError) :
    (throw error : Lowering L α).IgnoresCache [] pending := by
  intro nodes placed
  refine ⟨.error error, [], placed, [], faithful_nil, rfl, ?_⟩
  intro cache _
  rw [List.append_nil]
  rfl

theorem ignoresCache_bind {lowering : Lowering L α} {next : α -> Lowering L β}
    (first : lowering.IgnoresCache carried pending)
    (second : forall result, (next result).IgnoresCache (pending result) later) :
    (lowering >>= next).IgnoresCache carried later := by
  intro nodes placed
  rcases first nodes placed with ⟨outcome, new, placed', asked, ran⟩
  cases outcome with
  | error error =>
      refine ⟨.error error, new, placed', asked, ran.faithful, ran.held, ?_⟩
      intro cache sound
      rw [ExceptT.run_bind, StateT.run_bind, ran.runs cache sound]
      rfl
  | ok result =>
      rcases second result (nodes ++ new) placed' with ⟨outcome', more, placed'', asked', ran'⟩
      refine ⟨outcome', new ++ more, placed'', asked ++ asked', ran.faithful.append ran'.faithful,
        ?_, ?_⟩
      -- What the first part has left pending is carried through the second.
      · calc carried ++ (asked ++ asked') = carried ++ asked ++ asked' := by rw [List.append_assoc]
          _ = nodePatterns new ++ (pending result ++ asked') := by
            rw [ran.held, List.append_assoc]
            rfl
          _ = nodePatterns new ++ (nodePatterns more ++ pendingIn later outcome') := by
            rw [ran'.held]
          _ = nodePatterns (new ++ more) ++ pendingIn later outcome' := by
            rw [nodePatterns_append, List.append_assoc]
      · intro cache sound
        rw [ExceptT.run_bind, StateT.run_bind, ran.runs cache sound]
        rw [List.map_append, PatternCache.requested_append, <- List.append_assoc]
        exact ran'.runs _ (PatternCache.requested_sound sound _)

theorem ignoresCache_map {lowering : Lowering L α} (f : α -> β)
    (ignores : lowering.IgnoresCache carried pending)
    (same : forall result, later (f result) = pending result) :
    (lowering >>= fun result => pure (f result)).IgnoresCache carried later := by
  apply ignoresCache_bind ignores
  intro result
  exact ignoresCache_pure (same result)

/-- What compiling comes to with an answer of the cache. -/
def answered (source : String) : Option PatternProgram -> Lowering L PatternProgram
  | some program => pure program
  | none => throw (.invalidPattern source "it is not a regular expression")

theorem ignoresCache_compile (source : String) :
    (compile source : Lowering L PatternProgram).IgnoresCache []
      fun program => [(source, program)] := by
  intro nodes placed
  have runs : forall cache, (compile source : Lowering L PatternProgram).run.run
        ⟨nodes, placed, cache⟩ = (answered source (cache.getOrCompile source).1).run.run
          ⟨nodes, placed, (cache.getOrCompile source).2⟩ := fun _ => rfl
  cases compiled : Pattern.compile? source with
  | none =>
      refine ⟨.error (.invalidPattern source "it is not a regular expression"), [], placed, [],
        faithful_nil, rfl, ?_⟩
      intro cache sound
      rw [runs, (PatternCache.getOrCompile_sound sound source).1, compiled,
        (PatternCache.getOrCompile_invalid sound compiled).2, List.append_nil]
      rfl
  | some program =>
      refine ⟨.ok program, [], placed, [(source, program)], ?_, rfl, ?_⟩
      · intro other program' member
        cases List.mem_singleton.mp member
        exact compiled
      · intro cache sound
        rw [runs, (PatternCache.getOrCompile_sound sound source).1, compiled, List.append_nil]
        rfl

theorem ignoresCache_leaf (atom : Leaf L Unit) : (leaf atom).IgnoresCache [] Leaf.patterns := by
  cases atom with
  | exact literal =>
      rw [leaf]
      split
      · exact ignoresCache_throw _
      · exact ignoresCache_pure rfl
  | charset set label read => exact ignoresCache_pure rfl
  | pattern source program text =>
      exact ignoresCache_map (Leaf.pattern source · text) (ignoresCache_compile source) fun _ => rfl
  | empty => exact ignoresCache_pure rfl
  | eof => exact ignoresCache_pure rfl
  | fail message payload => exact ignoresCache_pure rfl
  | custom name act => exact ignoresCache_pure rfl

/-- Numbers of nodes have no regular expressions in them. -/
def nothing : α -> List (String × PatternProgram) := fun _ => []

theorem ignoresCache_exprs {items : List (Expr L)}
    (each : forall item, item ∈ items -> (expr item).IgnoresCache [] nothing) :
    (exprs items).IgnoresCache [] nothing := by
  induction items with
  | nil => exact ignoresCache_pure rfl
  | cons first rest inductionHypothesis =>
      apply ignoresCache_bind (each first List.mem_cons_self)
      intro id
      apply ignoresCache_map (id :: ·) _ fun _ => rfl
      exact inductionHypothesis fun item member => each item (List.mem_cons_of_mem _ member)

theorem ignoresCache_clause {written : Clause L Unit (Expr L)}
    (each : forall child, child ∈ written.children -> (expr child).IgnoresCache [] nothing) :
    (clause written).IgnoresCache [] Clause.patterns := by
  have alone : forall inner : Expr L, inner ∈ [inner] := fun inner => List.mem_singleton.mpr rfl
  cases written with
  | leaf atom => exact ignoresCache_map Clause.leaf (ignoresCache_leaf atom) fun _ => rfl
  | map inner transform =>
      exact ignoresCache_map (Clause.map · transform) (each inner (alone inner)) fun _ => rfl
  | update inner next =>
      exact ignoresCache_map (Clause.update · next) (each inner (alone inner)) fun _ => rfl
  | sequence items gather =>
      cases items with
      | nil => exact ignoresCache_throw _
      | cons first rest =>
          apply ignoresCache_bind (each first List.mem_cons_self)
          intro id
          apply ignoresCache_map (fun ids => Clause.sequence (id :: ids) gather) _ fun _ => rfl
          exact ignoresCache_exprs fun item member => each item (List.mem_cons_of_mem _ member)
  | choice alts =>
      cases alts with
      | nil => exact ignoresCache_throw _
      | cons first rest =>
          apply ignoresCache_bind (each first List.mem_cons_self)
          intro id
          apply ignoresCache_map (fun ids => Clause.choice (id :: ids)) _ fun _ => rfl
          exact ignoresCache_exprs fun item member => each item (List.mem_cons_of_mem _ member)
  | optional inner element =>
      exact ignoresCache_map (Clause.optional · element) (each inner (alone inner)) fun _ => rfl
  | attempt inner => exact ignoresCache_map Clause.attempt (each inner (alone inner)) fun _ => rfl
  | lookahead inner look negative =>
      apply ignoresCache_bind (each inner List.mem_cons_self)
      intro id
      apply ignoresCache_map (Clause.lookahead id · negative) _ fun _ => rfl
      exact each look (List.mem_cons_of_mem _ (alone look))
  | repeated inner element min max =>
      exact ignoresCache_map (Clause.repeated · element min max) (each inner (alone inner))
        fun _ => rfl
  | reference name expected target => exact ignoresCache_pure rfl
  | leftRecursion inner =>
      exact ignoresCache_map Clause.leftRecursion (each inner (alone inner)) fun _ => rfl

theorem ignoresCache_node? (key : Nat) :
    (node? key : Lowering L (Option NodeId)).IgnoresCache [] nothing := by
  intro nodes placed
  refine ⟨.ok ((placed.find? (·.1 == key)).map (·.2)), [], placed, [],
    faithful_nil, rfl, ?_⟩
  intro cache _
  rw [List.append_nil]
  rfl

/-- A clause takes its regular expression to the new node. -/
theorem ignoresCache_place (key : Nat) (clause : Clause L PatternProgram NodeId) :
    (place key clause).IgnoresCache clause.patterns nothing := by
  intro nodes placed
  refine ⟨.ok nodes.length, [clause], (key, nodes.length) :: placed, [],
    faithful_nil, ?_, fun _ _ => rfl⟩
  rw [nodePatterns, List.flatMap_singleton]
  rfl

theorem ignoresCache_expr (written : Expr L) : (expr written).IgnoresCache [] nothing := by
  induction written with
  | node key written inductionHypothesis =>
      rw [expr]
      apply ignoresCache_bind (ignoresCache_node? key)
      intro found
      cases found with
      | some id => exact ignoresCache_pure rfl
      | none =>
          exact ignoresCache_bind (ignoresCache_clause inductionHypothesis) (ignoresCache_place key)

theorem ignoresCache_lowerRules (definitions : List (Definition L)) :
    (GrammarBuilder.lowerRules definitions).IgnoresCache [] nothing := by
  induction definitions with
  | nil => exact ignoresCache_pure rfl
  | cons definition rest inductionHypothesis =>
      apply ignoresCache_bind (ignoresCache_expr definition.parser.expr)
      intro root
      apply ignoresCache_map (⟨definition.name, definition.type, root⟩ :: ·) inductionHypothesis
      exact fun _ => rfl

end Lowering

/-! ## Builds -/

namespace GrammarBuilder

/-- The nodes that a build has placed when lowering stops, because all rules have been
lowered or because one is refused. -/
def lowered (builder : GrammarBuilder L) : List (Clause L PatternProgram NodeId) :=
  match duplicate? [] (builder.definitions.map (·.name)) with
  | some _ => []
  | none =>
    ((lowerRules builder.definitions).run.run (Lowering.start PatternCache.empty)).2.nodes

/-- The sources that a build asks for and that can be read. -/
def sources (builder : GrammarBuilder L) : List String :=
  (nodePatterns builder.lowered).map (·.1)

end GrammarBuilder

/-- Whether a build with a cache comes to the same as with an empty one, has the same
effect on the cache as asking for its sources in turn, and compiles each regular
expression of a grammar that is accepted from its source. -/
structure PatternCache.BuildsAfresh (cache : PatternCache) (builder : GrammarBuilder L) : Prop where
  outcome : (builder.build cache).1 = (builder.build empty).1
  requests : (builder.build cache).2 = cache.requested builder.sources
  valid : forall source, source ∈ builder.sources -> (Pattern.compile? source).isSome
  compiled : forall built, (builder.build cache).1 = .ok built ->
    (nodePatterns built.grammar.nodes).map (·.1) = builder.sources ∧
      Faithful (nodePatterns built.grammar.nodes)

/-- Binding keeps the regular expressions. -/
theorem Grammar.nodePatterns_bound {rules : List (Rule L)}
    {nodes bound : List (Clause L PatternProgram NodeId)}
    (areBound : List.Forall₂ (fun clause clause' => bind rules clause = .ok clause') nodes bound) :
    nodePatterns bound = nodePatterns nodes := by
  induction areBound with
  | nil => rfl
  | @cons clause clause' nodes bound isBound _ inductionHypothesis =>
      have same : clause'.patterns = clause.patterns := by
        rcases bind_ok isBound with ⟨_, rfl⟩ | ⟨_, _, _, _, rfl, _, _, rfl⟩
        · rfl
        · rfl
      rw [nodePatterns, nodePatterns, List.flatMap_cons, List.flatMap_cons, same]
      exact congrArg (clause.patterns ++ ·) inductionHypothesis

theorem Grammar.nodePatterns_redirect (ends : List NodeId) (grammar : Grammar L) :
    nodePatterns (redirect ends grammar).nodes = nodePatterns grammar.nodes := by
  have same : forall (target : NodeId -> NodeId) (clause : Clause L PatternProgram NodeId),
      (clause.redirect target).patterns = clause.patterns := by
    intro target clause
    cases clause <;> rfl
  rw [nodePatterns, redirect, List.flatMap_map]
  exact congrArg (List.flatMap · grammar.nodes) (funext (same _))

namespace GrammarBuilder

variable {builder : GrammarBuilder L} {cache : PatternCache}

/-- A build does the same with every sound cache, and asks it for its sources. -/
theorem exists_build (builder : GrammarBuilder L) : Faithful (nodePatterns builder.lowered) ∧
    exists outcome, forall cache : PatternCache, cache.Sound ->
      builder.build cache = (outcome, cache.requested builder.sources) := by
  rw [sources, lowered]
  cases duplicate : duplicate? [] (builder.definitions.map (·.name)) with
  | some name =>
      refine ⟨faithful_nil, .error (.duplicateRule name), ?_⟩
      intro cache _
      rw [build, duplicate]
      rfl
  | none =>
      rcases Lowering.ignoresCache_lowerRules builder.definitions [] [] with
        ⟨outcome, new, placed, asked, ran⟩
      have atNodes : nodePatterns new = asked := by
        have held := ran.held
        cases outcome with
        | error error => exact (held.trans (List.append_nil _)).symm
        | ok rules => exact (held.trans (List.append_nil _)).symm
      have runs : forall cache : PatternCache, cache.Sound ->
          (lowerRules builder.definitions).run.run (Lowering.start cache) =
            (outcome, ⟨new, placed, cache.requested (asked.map (·.1))⟩) := ran.runs
      simp only [runs _ PatternCache.empty_sound, atNodes]
      refine ⟨ran.faithful, ?_⟩
      cases outcome with
      | error error =>
          refine ⟨.error error, ?_⟩
          intro cache sound
          rw [build, duplicate]
          simp only [runs cache sound]
      | ok rules =>
          refine ⟨resolve ⟨new, rules⟩, ?_⟩
          intro cache sound
          rw [build, duplicate]
          simp only [runs cache sound]

/-- The regular expressions of a grammar that is accepted are those that have been
lowered. -/
theorem nodePatterns_built {after : PatternCache} {built : BuiltGrammar L}
    (accepted : builder.build PatternCache.empty = (.ok built, after)) :
    nodePatterns built.grammar.nodes = nodePatterns builder.lowered := by
  rcases build_accepted accepted with
    ⟨different, rules, state, yields, _, bound, ends, isBound, _, isGrammar⟩
  have isLowered : builder.lowered = state.nodes := by
    have noDuplicate : duplicate? [] (builder.definitions.map (·.name)) = none := by
      cases duplicate : duplicate? [] (builder.definitions.map (·.name)) with
      | none => rfl
      | some name =>
          rw [build, duplicate] at accepted
          cases accepted
    have isState : (lowerRules builder.definitions).run.run (Lowering.start PatternCache.empty) =
        (.ok rules, state) := yields
    rw [lowered, noDuplicate]
    simp only [isState]
  rw [isLowered, isGrammar, Grammar.nodePatterns_redirect]
  exact Grammar.nodePatterns_bound (Grammar.bindAll_ok isBound)

theorem buildsAfresh (builder : GrammarBuilder L) (sound : cache.Sound) :
    cache.BuildsAfresh builder := by
  rcases builder.exists_build with ⟨faithful, outcome, runs⟩
  have same : (builder.build cache).1 = (builder.build PatternCache.empty).1 := by
    rw [runs cache sound, runs _ PatternCache.empty_sound]
  refine ⟨same, ?_, ?_, ?_⟩
  · rw [runs cache sound]
  · intro source member
    rcases List.mem_map.mp member with ⟨⟨_, program⟩, isPattern, rfl⟩
    rw [faithful _ program isPattern, Option.isSome_some]
  · intro built accepted
    rw [same] at accepted
    rw [nodePatterns_built (Prod.ext accepted rfl)]
    exact ⟨rfl, faithful⟩

end GrammarBuilder
end SeedGrammar
