import Mathlib.Data.List.Perm.Subperm
import Mathlib.Logic.Relation
import SeedGrammar.Grammar.Reach

namespace SeedGrammar
namespace Grammar

/-!
# The search finds what can be reached

The search over the nodes of a grammar visits exactly the nodes to which a path
leads.  Nothing else is visited, because a node is only visited from one that
was.  Nothing is missed, because when the search leaves a node all that it
leads to has been visited; the bound on its depth cannot be used up before,
since the nodes passed on the way down are different.

Other searches of this kind do not follow all operands of a node.  What they leave
behind is closed under the edges that they follow, `Explores`.
-/

variable {L : Signature}

/-- Numbers of nodes without repetition are not more than there are nodes. -/
theorem length_le_of_nodup {ids : List NodeId} {bound : Nat} (different : ids.Nodup)
    (inRange : forall id, id ∈ ids -> id < bound) : ids.length ≤ bound := by
  have subset : ids ⊆ List.range bound := by
    intro id member
    exact List.mem_range.mpr (inRange id member)
  have short := (List.subperm_of_subset different subset).length_le
  rwa [List.length_range] at short

/-- Whether one node leads to another directly. -/
def Edge (grammar : Grammar L) (next : Clause L PatternProgram NodeId -> List NodeId)
    (id child : NodeId) : Prop :=
  exists clause, grammar.nodes[id]? = some clause ∧ child ∈ next clause

/-- Whether there is a path from one node to another. -/
def Path (grammar : Grammar L) (next : Clause L PatternProgram NodeId -> List NodeId) :
    NodeId -> NodeId -> Prop :=
  Relation.ReflTransGen (grammar.Edge next)

/-- Nodes that a search may have visited. -/
structure Visited (grammar : Grammar L) (visited : List NodeId) : Prop where
  nodup : visited.Nodup
  inRange : forall id, id ∈ visited -> id < grammar.nodeCount

/-- What a search from several nodes adds to the visited nodes: the nodes it
starts from, and with each new one all that it leads to. -/
structure Visits (grammar : Grammar L) (next : Clause L PatternProgram NodeId -> List NodeId)
    (before after starts : List NodeId) : Prop where
  visited : grammar.Visited after
  keeps : before ⊆ after
  begins : forall id, id ∈ starts -> id < grammar.nodeCount -> id ∈ after
  reached : forall id, id ∈ after -> id ∉ before ->
    exists start, start ∈ starts ∧ grammar.Path next start id
  closed : forall id child, id ∈ after -> id ∉ before -> grammar.Edge next id child ->
    child < grammar.nodeCount -> child ∈ after

variable {grammar : Grammar L} {next : Clause L PatternProgram NodeId -> List NodeId}

theorem Visits.none {visited starts : List NodeId} (isVisited : grammar.Visited visited)
    (known : forall id, id ∈ starts -> id < grammar.nodeCount -> id ∈ visited) :
    grammar.Visits next visited visited starts where
  visited := isVisited
  keeps := List.Subset.refl _
  begins := known
  reached _ member fresh := absurd member fresh
  closed _ _ member fresh := absurd member fresh

/-- Visiting several nodes one after the other. -/
theorem visits_foldl {fuel : Nat}
    (one : forall visited id, grammar.Visited visited ->
      grammar.nodeCount < visited.length + fuel ->
      grammar.Visits next visited (grammar.visit next fuel visited id) [id])
    {ids visited : List NodeId} (isVisited : grammar.Visited visited)
    (enough : grammar.nodeCount < visited.length + fuel) :
    grammar.Visits next visited (ids.foldl (grammar.visit next fuel) visited) ids := by
  induction ids generalizing visited with
  | nil =>
      apply Visits.none isVisited
      intro id member
      cases member
  | cons first rest inductionHypothesis =>
      rw [List.foldl_cons]
      have early := one visited first isVisited enough
      have grows := (List.subperm_of_subset isVisited.nodup early.keeps).length_le
      have late := inductionHypothesis early.visited (by omega)
      constructor
      · exact late.visited
      · exact List.Subset.trans early.keeps late.keeps
      · intro id member inRange
        rcases List.mem_cons.mp member with own | later
        · apply late.keeps
          apply early.begins id _ inRange
          rw [own]
          exact List.mem_singleton.mpr rfl
        · exact late.begins id later inRange
      · intro id member fresh
        by_cases isEarly : id ∈ grammar.visit next fuel visited first
        · rcases early.reached id isEarly fresh with ⟨start, isFirst, path⟩
          rw [List.mem_singleton.mp isFirst] at path
          exact ⟨first, List.mem_cons_self .., path⟩
        · rcases late.reached id member isEarly with ⟨start, isRest, path⟩
          exact ⟨start, List.mem_cons_of_mem _ isRest, path⟩
      · intro id child member fresh edge inRange
        by_cases isEarly : id ∈ grammar.visit next fuel visited first
        · exact late.keeps (early.closed id child isEarly fresh edge inRange)
        · exact late.closed id child member isEarly edge inRange

theorem visits_visit {fuel : Nat} {visited : List NodeId} {id : NodeId}
    (isVisited : grammar.Visited visited)
    (enough : grammar.nodeCount < visited.length + fuel) :
    grammar.Visits next visited (grammar.visit next fuel visited id) [id] := by
  induction fuel generalizing visited id with
  | zero => exact absurd enough (Nat.not_lt_of_le (length_le_of_nodup isVisited.nodup isVisited.inRange))
  | succ fuel inductionHypothesis =>
      rw [visit]
      by_cases again : id ∈ visited
      · rw [if_pos again]
        apply Visits.none isVisited
        intro other member _
        rwa [List.mem_singleton.mp member]
      · rw [if_neg again]
        cases found : grammar.nodes[id]? with
        | none =>
            apply Visits.none isVisited
            intro other member inRange
            rw [List.mem_singleton.mp member] at inRange
            exact absurd (List.getElem?_eq_none_iff.mp found) (Nat.not_le_of_lt inRange)
        | some clause =>
            have fresh : grammar.Visited (id :: visited) := by
              constructor
              · exact List.nodup_cons.mpr ⟨again, isVisited.nodup⟩
              · intro other member
                rcases List.mem_cons.mp member with own | older
                · rw [own]
                  exact (List.getElem?_eq_some_iff.mp found).1
                · exact isVisited.inRange other older
            have left : grammar.nodeCount < (id :: visited).length + fuel := by
              rw [List.length_cons]
              omega
            have below : grammar.Visits next (id :: visited)
                ((next clause).foldl (grammar.visit next fuel) (id :: visited)) (next clause) :=
              visits_foldl (fun visited id => inductionHypothesis) fresh left
            have own : id ∈ (next clause).foldl (grammar.visit next fuel) (id :: visited) :=
              below.keeps (List.mem_cons_self ..)
            constructor
            · exact below.visited
            · exact List.Subset.trans (List.subset_cons_self ..) below.keeps
            · intro other member _
              rwa [List.mem_singleton.mp member]
            · intro other member notBefore
              refine ⟨id, List.mem_singleton.mpr rfl, ?_⟩
              by_cases same : other = id
              · rw [same]
                exact .refl
              · have notOwn : other ∉ id :: visited := by
                  intro inside
                  rcases List.mem_cons.mp inside with isOwn | isOld
                  · exact same isOwn
                  · exact notBefore isOld
                rcases below.reached other member notOwn with ⟨start, isChild, path⟩
                exact .head ⟨clause, found, isChild⟩ path
            · intro other child member notBefore edge inRange
              by_cases same : other = id
              · rcases edge with ⟨clause', found', isChild⟩
                rw [same, found] at found'
                cases found'
                exact below.begins child isChild inRange
              · have notOwn : other ∉ id :: visited := by
                  intro inside
                  rcases List.mem_cons.mp inside with isOwn | isOld
                  · exact same isOwn
                  · exact notBefore isOld
                exact below.closed other child member notOwn edge inRange

/-- A search from a node visits the nodes to which a path leads from it. -/
theorem mem_visit_iff {id : NodeId} (inRange : id < grammar.nodeCount) {other : NodeId} :
    other ∈ grammar.visit next (grammar.nodeCount + 1) [] id ↔
      grammar.Path next id other ∧ other < grammar.nodeCount := by
  have search : grammar.Visits next [] (grammar.visit next (grammar.nodeCount + 1) [] id) [id] := by
    apply visits_visit
    · refine ⟨List.nodup_nil, ?_⟩
      intro other member
      cases member
    · rw [List.length_nil]
      omega
  constructor
  · intro member
    rcases search.reached other member List.not_mem_nil with ⟨start, isStart, path⟩
    rw [List.mem_singleton.mp isStart] at path
    exact ⟨path, search.visited.inRange other member⟩
  · rintro ⟨path, otherInRange⟩
    induction path with
    | refl => exact search.begins id (List.mem_singleton.mpr rfl) inRange
    | @tail middle last _ edge inductionHypothesis =>
        have middleInRange : middle < grammar.nodeCount := by
          rcases edge with ⟨clause, found, _⟩
          exact (List.getElem?_eq_some_iff.mp found).1
        exact search.closed middle last (inductionHypothesis middleInRange) List.not_mem_nil edge
          otherInRange

/-- Running a node can replace the state if a path leads to a clause that does. -/
theorem writesState_iff {id : NodeId} (inRange : id < grammar.nodeCount) :
    grammar.writesState id = true ↔
      exists other clause, grammar.Path Clause.successors id other ∧
        grammar.nodes[other]? = some clause ∧ clause.isUpdate = true := by
  rw [writesState, if_pos inRange, List.any_eq_true]
  constructor
  · rintro ⟨other, member, isUpdate⟩
    rcases (Option.any_eq_true _ _).mp isUpdate with ⟨clause, found, updates⟩
    exact ⟨other, clause, ((mem_visit_iff inRange).mp member).1, found, updates⟩
  · rintro ⟨other, clause, path, found, updates⟩
    have otherInRange := (List.getElem?_eq_some_iff.mp found).1
    exact ⟨other, (mem_visit_iff inRange).mpr ⟨path, otherInRange⟩,
      (Option.any_eq_true _ _).mpr ⟨clause, found, updates⟩⟩

/-! ## Searches along edges of another kind -/

/-- What a search leaves behind that follows edges of some kind from each node that
it visits, given the nodes that it starts from. -/
structure Explores (grammar : Grammar L) (edge : NodeId -> NodeId -> Prop)
    (starts : NodeId -> Prop) (before after : List NodeId) : Prop where
  visited : grammar.Visited after
  keeps : before ⊆ after
  begins : forall id, starts id -> id ∈ after
  closed : forall id operand, id ∈ after -> id ∉ before -> edge id operand -> operand ∈ after

theorem Visited.none (grammar : Grammar L) : grammar.Visited [] where
  nodup := List.nodup_nil
  inRange _ member := by cases member

theorem Visited.cons {visited : List NodeId} (isVisited : grammar.Visited visited) {id : NodeId}
    (fresh : id ∉ visited) (isNode : id < grammar.nodeCount) : grammar.Visited (id :: visited) := by
  refine ⟨List.nodup_cons.mpr ⟨fresh, isVisited.nodup⟩, ?_⟩
  intro other member
  rcases List.mem_cons.mp member with own | older
  · rw [own]
    exact isNode
  · exact isVisited.inRange other older

namespace Explores

variable {edge : NodeId -> NodeId -> Prop} {starts starts' : NodeId -> Prop} {first : NodeId}
  {before middle after : List NodeId}

theorem none (isVisited : grammar.Visited before) (known : forall id, starts id -> id ∈ before) :
    grammar.Explores edge starts before before where
  visited := isVisited
  keeps := List.Subset.refl _
  begins := known
  closed _ _ member fresh := absurd member fresh

/-- A search that follows more edges follows these, and one from more nodes starts
from these. -/
theorem mono {fewer : NodeId -> NodeId -> Prop}
    (explores : grammar.Explores edge starts before after)
    (isEdge : forall id operand, fewer id operand -> edge id operand)
    (isStart : forall id, starts' id -> starts id) :
    grammar.Explores fewer starts' before after where
  visited := explores.visited
  keeps := explores.keeps
  begins id start := explores.begins id (isStart id start)
  closed id operand member fresh follows :=
    explores.closed id operand member fresh (isEdge id operand follows)

/-- A search from a new node goes on from the ends of its edges. -/
theorem enter (below : grammar.Explores edge (edge first) (first :: before) after) :
    grammar.Explores edge (· = first) before after where
  visited := below.visited
  keeps := List.Subset.trans (List.subset_cons_self ..) below.keeps
  begins id own := by
    rw [own]
    exact below.keeps List.mem_cons_self
  closed id operand member fresh follows := by
    by_cases own : id = first
    · rw [own] at follows
      exact below.begins operand follows
    · apply below.closed id operand member _ follows
      intro inside
      rcases List.mem_cons.mp inside with isOwn | older
      · exact own isOwn
      · exact fresh older

/-- One search after the other. -/
theorem andThen (early : grammar.Explores edge starts before middle)
    (late : grammar.Explores edge starts' middle after) :
    grammar.Explores edge (fun id => starts id ∨ starts' id) before after where
  visited := late.visited
  keeps := List.Subset.trans early.keeps late.keeps
  begins := by
    rintro id (isEarly | isLate)
    · exact late.keeps (early.begins id isEarly)
    · exact late.begins id isLate
  closed id operand member fresh follows := by
    by_cases isEarly : id ∈ middle
    · exact late.keeps (early.closed id operand isEarly fresh follows)
    · exact late.closed id operand member isEarly follows

/-- A search that starts with nothing visited visits all to which edges lead. -/
theorem mem_of_path (explores : grammar.Explores edge starts [] after) {id last : NodeId}
    (start : starts id) (path : Relation.ReflTransGen edge id last) : last ∈ after := by
  induction path with
  | refl => exact explores.begins id start
  | tail _ follows inductionHypothesis =>
      exact explores.closed _ _ inductionHypothesis List.not_mem_nil follows

end Explores

end Grammar
end SeedGrammar
