import SeedGrammar.Proofs.Grammar.Numbering
import SeedGrammar.Proofs.Grammar.QueryHistory
import SeedGrammar.Proofs.Grammar.Reach

namespace SeedGrammar

/-!
# The leaves that a first set holds

The search for the first set of a node goes on from each node to the operands that
can lead to a leaf at the place where the node starts.  Of a sequence these are the
items up to the first that is answered with no.  The nodes that it leaves behind are
closed under such steps, and the leaves among them are in the first set,
`Grammar.firstSet_explores`.

Answers are given in the course of the search, and they stay.  So the steps that
are taken include all that would be taken with what is known in the end.  Unlike
the search for left recursion this one also passes through left recursions and
references.
-/

variable {L : Signature}

/-- Whether the search for leaves goes on from a clause to an operand, given which
items of a sequence it passes over. -/
structure Clause.Leads {ρ α : Type} (passed : α -> Prop) (operand : α) (clause : Clause L ρ α) :
    Prop where
  isLeading : operand ∈ clause.leading
  inFront : forall items gather, clause = .sequence items gather ->
    exists before after, items = before ++ operand :: after ∧
      forall item, item ∈ before -> passed item

theorem Clause.Leads.imp {ρ α : Type} {passed other : α -> Prop} {operand : α}
    {clause : Clause L ρ α} (leads : clause.Leads passed operand)
    (weaker : forall item, passed item -> other item) : clause.Leads other operand where
  isLeading := leads.isLeading
  inFront items gather isSequence := by
    rcases leads.inFront items gather isSequence with ⟨before, after, split, arePassed⟩
    exact ⟨before, after, split, fun item member => weaker item (arePassed item member)⟩

namespace Grammar

/-- Whether the search for leaves goes on from a node to an operand if nothing else
is answered with no than what is known. -/
def FirstEdge (grammar : Grammar L) (known : Nullability) (id operand : NodeId) : Prop :=
  exists clause, grammar.nodes[id]? = some clause ∧
    clause.Leads (fun item => ¬Denied known item) operand

variable {grammar : Grammar L}

/-- What is answered with no later can only make the search go on to less. -/
theorem FirstEdge.earlier {known later : Nullability} {id operand : NodeId}
    (edge : grammar.FirstEdge later id operand) (longer : known.Extends later) :
    grammar.FirstEdge known id operand := by
  rcases edge with ⟨clause, found, leads⟩
  exact ⟨clause, found, leads.imp fun item spared denied => spared (denied.extends longer)⟩

/-! ## What a search gathers -/

/-- What a search for leaves leaves behind, given the nodes that it starts from: it
goes on from the nodes that it visits, and notes the leaves among them. -/
structure Gathers (grammar : Grammar L) (starts : NodeId -> Prop) (before after : FirstSearch) :
    Prop where
  longer : before.known.Extends after.known
  explores : grammar.Explores (grammar.FirstEdge after.known) starts before.visited after.visited
  keeps : before.leaves ⊆ after.leaves
  notes : forall id atom, id ∈ after.visited -> id ∉ before.visited ->
    grammar.nodes[id]? = some (.leaf atom) -> id ∈ after.leaves

namespace Gathers

variable {starts starts' : NodeId -> Prop} {before middle after : FirstSearch} {id : NodeId}

theorem none (isVisited : grammar.Visited before.visited)
    (known : forall id, starts id -> id ∈ before.visited) :
    grammar.Gathers starts before before where
  longer := .refl _
  explores := .none isVisited known
  keeps := List.Subset.refl _
  notes _ _ member fresh := absurd member fresh

theorem of_starts (gathers : grammar.Gathers starts before after)
    (same : forall id, starts' id -> starts id) : grammar.Gathers starts' before after where
  longer := gathers.longer
  explores := gathers.explores.mono (fun _ _ edge => edge) same
  keeps := gathers.keeps
  notes := gathers.notes

/-- One search after the other. -/
theorem andThen (early : grammar.Gathers starts before middle)
    (late : grammar.Gathers starts' middle after) :
    grammar.Gathers (fun id => starts id ∨ starts' id) before after where
  longer := early.longer.trans late.longer
  explores := by
    have stillEdge : forall id operand, grammar.FirstEdge after.known id operand ->
        grammar.FirstEdge middle.known id operand :=
      fun _ _ edge => edge.earlier late.longer
    exact (early.explores.mono stillEdge fun _ start => start).andThen late.explores
  keeps := List.Subset.trans early.keeps late.keeps
  notes other atom member fresh isLeaf := by
    by_cases isEarly : other ∈ middle.visited
    · exact late.keeps (early.notes other atom isEarly fresh isLeaf)
    · exact late.notes other atom member isEarly isLeaf

/-- A question after a search leaves what has been gathered as it is. -/
theorem ask (gathers : grammar.Gathers starts before after) (other : NodeId) :
    grammar.Gathers starts before
      { after with known := (grammar.isNullable other after.known).2 } where
  longer := gathers.longer.trans (grammar.isNullableWithin_extends _ other after.known)
  explores := gathers.explores.mono
    (fun _ _ edge => edge.earlier (grammar.isNullableWithin_extends _ other after.known))
    fun _ start => start
  keeps := gathers.keeps
  notes := gathers.notes

/-- A search that enters a new node goes on from there, unless it is a leaf. -/
theorem enter
    (below : grammar.Gathers (grammar.FirstEdge after.known id)
      { before with visited := id :: before.visited } after)
    (noLeaf : forall atom, grammar.nodes[id]? ≠ some (.leaf atom)) :
    grammar.Gathers (· = id) before after where
  longer := below.longer
  explores := below.explores.enter
  keeps := below.keeps
  notes other atom member fresh isLeaf := by
    apply below.notes other atom member _ isLeaf
    intro inside
    rcases List.mem_cons.mp inside with own | older
    · rw [own] at isLeaf
      exact noLeaf atom isLeaf
    · exact fresh older

/-- A leaf is noted, and the search ends there. -/
theorem leaf {atom : Leaf L PatternProgram} (isVisited : grammar.Visited (id :: before.visited))
    (isLeaf : grammar.nodes[id]? = some (.leaf atom)) :
    grammar.Gathers (· = id) before
      { before with visited := id :: before.visited, leaves := id :: before.leaves } where
  longer := .refl _
  explores := by
    apply Explores.enter
    apply Explores.none isVisited
    rintro operand ⟨clause, found, leads⟩
    rw [isLeaf] at found
    cases found
    cases leads.isLeading
  keeps := List.subset_cons_self ..
  notes other _ member fresh _ := by
    rcases List.mem_cons.mp member with own | older
    · rw [own]
      exact List.mem_cons_self
    · exact absurd older fresh

end Gathers

/-! ## The search -/

/-- What is left of the depth is enough when more has been visited. -/
theorem Gathers.enough {starts : NodeId -> Prop} {before after : FirstSearch} {fuel : Nat}
    (gathers : grammar.Gathers starts before after) (isVisited : grammar.Visited before.visited)
    (enough : grammar.nodeCount < before.visited.length + fuel) :
    grammar.nodeCount < after.visited.length + fuel := by
  have grows := (List.subperm_of_subset isVisited.nodup gathers.explores.keeps).length_le
  omega

/-- Whether a search gathers what a node leads to as long as there is depth
enough. -/
def GathersFrom (grammar : Grammar L) (search : NodeId -> FirstSearch -> FirstSearch)
    (fuel : Nat) : Prop :=
  forall id state, id < grammar.nodeCount -> grammar.Visited state.visited ->
    grammar.nodeCount < state.visited.length + fuel ->
    grammar.Gathers (· = id) state (search id state)

section Operands

variable {search : NodeId -> FirstSearch -> FirstSearch} {fuel : Nat}

/-- Searching from several operands gathers what each of them leads to. -/
theorem foldl_gathers (one : grammar.GathersFrom search fuel) {operands : List NodeId}
    (inRange : forall operand, operand ∈ operands -> operand < grammar.nodeCount)
    {state : FirstSearch} (isVisited : grammar.Visited state.visited)
    (enough : grammar.nodeCount < state.visited.length + fuel) :
    grammar.Gathers (fun id => id ∈ operands) state
      (operands.foldl (fun state operand => search operand state) state) := by
  induction operands generalizing state with
  | nil =>
      apply Gathers.none isVisited
      intro id member
      cases member
  | cons operand rest inductionHypothesis =>
      have early := one operand state (inRange operand List.mem_cons_self) isVisited enough
      have late := inductionHypothesis
        (fun other member => inRange other (List.mem_cons_of_mem operand member))
        early.explores.visited (early.enough isVisited enough)
      exact (early.andThen late).of_starts fun id member => List.mem_cons.mp member

/-- Searching the items of a sequence gathers what those lead to that have no item
in front of them that is answered with no. -/
theorem searchItems_gathers (one : grammar.GathersFrom search fuel) {items : List NodeId}
    (inRange : forall item, item ∈ items -> item < grammar.nodeCount) {state : FirstSearch}
    (isVisited : grammar.Visited state.visited)
    (enough : grammar.nodeCount < state.visited.length + fuel) :
    grammar.Gathers
      (fun id => exists before after, items = before ++ id :: after ∧
        forall item, item ∈ before -> ¬Denied (grammar.searchItems search items state).known item)
      state (grammar.searchItems search items state) := by
  induction items generalizing state with
  | nil =>
      apply Gathers.none isVisited
      rintro id ⟨before, after, split, _⟩
      exact absurd split.symm (List.append_ne_nil_of_right_ne_nil _ (List.cons_ne_nil _ _))
  | cons item rest inductionHypothesis =>
      have early := one item state (inRange item List.mem_cons_self) isVisited enough
      have asked := early.ask item
      have denies := @isNullableWithin_denies _ (search item state).known item grammar
        grammar.nodeCount
      rw [<- isNullable] at denies
      rw [searchItems]
      cases answer : grammar.isNullable item (search item state).known with
      | mk isNullable next =>
          rw [answer] at asked denies
          cases isNullable with
          | true =>
              have late := inductionHypothesis
                (fun other member => inRange other (List.mem_cons_of_mem item member))
                asked.explores.visited (asked.enough isVisited enough)
              apply (asked.andThen late).of_starts
              rintro id ⟨before, after, split, spared⟩
              cases before with
              | nil =>
                  cases split
                  exact Or.inl rfl
              | cons first before =>
                  cases split
                  exact Or.inr ⟨before, after, rfl,
                    fun other member => spared other (List.mem_cons_of_mem _ member)⟩
          | false =>
              apply asked.of_starts
              rintro id ⟨before, after, split, spared⟩
              cases before with
              | nil =>
                  cases split
                  rfl
              | cons first before =>
                  cases split
                  exact absurd (denies rfl) (spared item List.mem_cons_self)

/-- Searching from a clause gathers what it leads to, unless it is a leaf. -/
theorem searchClause_gathers (one : grammar.GathersFrom search fuel) (id : NodeId)
    {clause : Clause L PatternProgram NodeId}
    (inRange : forall operand, operand ∈ clause.leading -> operand < grammar.nodeCount)
    (noLeaf : forall atom, clause ≠ .leaf atom) {state : FirstSearch}
    (isVisited : grammar.Visited state.visited)
    (enough : grammar.nodeCount < state.visited.length + fuel) :
    grammar.Gathers
      (clause.Leads fun item =>
        ¬Denied (grammar.searchClause search id state clause).known item)
      state (grammar.searchClause search id state clause) := by
  cases clause with
  | leaf atom => exact absurd rfl (noLeaf atom)
  | sequence items gather =>
      apply (searchItems_gathers one inRange isVisited enough).of_starts
      intro operand leads
      exact leads.inFront items gather rfl
  | _ =>
      apply (foldl_gathers one inRange isVisited enough).of_starts
      intro operand leads
      exact leads.isLeading

end Operands

/-- Whether the search for leaves goes on to nodes only. -/
def LeadsInRange (grammar : Grammar L) : Prop :=
  forall {id operand}, grammar.Edge Clause.leading id operand -> operand < grammar.nodeCount

/-- The nodes that are being visited on the way down are different, so the depth does
not run out. -/
theorem searchFirst_gathers (inRange : grammar.LeadsInRange) (fuel : Nat) :
    grammar.GathersFrom (grammar.searchFirst fuel) fuel := by
  induction fuel with
  | zero =>
      intro id state _ isVisited enough
      have short := length_le_of_nodup isVisited.nodup isVisited.inRange
      exact absurd enough (Nat.not_lt_of_le short)
  | succ fuel inductionHypothesis =>
      intro id state isNode isVisited enough
      rw [searchFirst_succ]
      by_cases again : id ∈ state.visited
      · rw [if_pos again]
        exact .none isVisited fun other own => own ▸ again
      · rw [if_neg again]
        have entered := isVisited.cons again isNode
        have left : grammar.nodeCount < (id :: state.visited).length + fuel := by
          rw [List.length_cons]
          omega
        cases found : grammar.nodes[id]? with
        | none => exact absurd (List.getElem?_eq_none_iff.mp found) (Nat.not_le_of_lt isNode)
        | some clause =>
            dsimp only
            by_cases isLeaf : exists atom, clause = .leaf atom
            · rcases isLeaf with ⟨atom, rfl⟩
              exact .leaf entered found
            · let inside : FirstSearch := { state with visited := id :: state.visited }
              have isVisited : grammar.Visited inside.visited := entered
              have below := searchClause_gathers inductionHypothesis id
                (fun operand member => inRange ⟨clause, found, member⟩)
                (fun atom isAtom => isLeaf ⟨atom, isAtom⟩) isVisited left
              apply Gathers.enter
              · apply below.of_starts
                rintro operand ⟨clause', found', leads⟩
                rw [found] at found'
                cases found'
                exact leads
              · intro atom isAtom
                rw [found] at isAtom
                exact isLeaf ⟨atom, Option.some.inj isAtom⟩

/-- The search for the first set of a node leaves behind some nodes, the node itself
among them, that are closed under the steps of the search.  The leaves among them
are in the first set. -/
theorem firstSet_explores (inRange : grammar.LeadsInRange) {id : NodeId}
    (isNode : id < grammar.nodeCount) (known : Nullability) :
    exists region : List NodeId, id ∈ region ∧
      (forall node operand, node ∈ region ->
        grammar.FirstEdge (grammar.firstSet id known).2 node operand -> operand ∈ region) ∧
      forall node atom, node ∈ region -> grammar.nodes[node]? = some (.leaf atom) ->
        node ∈ (grammar.firstSet id known).1 := by
  let start : FirstSearch := ⟨[], [], known⟩
  have gathers : grammar.Gathers (· = id) start
      (grammar.searchFirst (grammar.nodeCount + 1) id start) := by
    apply searchFirst_gathers inRange _ id start isNode (.none grammar)
    exact Nat.lt_of_lt_of_le (Nat.lt_succ_self _) (Nat.le_add_left _ _)
  refine ⟨_, gathers.explores.begins id rfl, ?_, ?_⟩
  · intro node operand member edge
    exact gathers.explores.closed node operand member List.not_mem_nil edge
  · intro node atom member isLeaf
    exact List.mem_reverse.mpr (gathers.notes node atom member List.not_mem_nil isLeaf)

end Grammar

namespace GrammarBuilder

/-- Everything that a clause of a resolved grammar leads to is a node. -/
theorem ResolvesTo.leadsInRange {builder : GrammarBuilder L} {cache : PatternCache}
    {grammar : Grammar L} (resolves : builder.ResolvesTo cache grammar) : grammar.LeadsInRange := by
  have ordered := resolves.ordered
  rintro id operand ⟨clause, found, isLeading⟩
  cases clause with
  | reference name expected target =>
      cases target with
      | none => cases isLeading
      | some target =>
          rw [List.mem_singleton.mp isLeading]
          exact resolves.target_inRange found
  | lookahead inner look negative =>
      rw [List.mem_singleton.mp isLeading]
      exact ordered.inRange ⟨_, found, List.mem_cons_self⟩
  | _ => exact ordered.inRange ⟨_, found, isLeading⟩

theorem build_leadsInRange {builder : GrammarBuilder L} {cache after : PatternCache}
    {built : BuiltGrammar L} (accepted : builder.build cache = (.ok built, after)) :
    built.grammar.LeadsInRange :=
  (build_resolvesTo accepted).leadsInRange

end GrammarBuilder
end SeedGrammar
