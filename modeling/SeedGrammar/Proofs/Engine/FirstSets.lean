import SeedGrammar.Proofs.Engine.LintClean
import SeedGrammar.Proofs.Engine.LoopFree
import SeedGrammar.Proofs.Engine.Places
import SeedGrammar.Proofs.Grammar.FirstLeaves

namespace SeedGrammar

/-!
# What a first set predicts

A run that ends farther than it started has been taken there by a leaf, and the
first leaf that leads away from the start is in the first set of the node that is
run, `GrammarBuilder.build_firstSet_predicts`.  It does not matter whether the run
succeeds, nor whether the part that the leaf belongs to is given up again.

As long as a run stays where it started, each call is of an operand that the search
for leaves goes on to: what is in front of it has matched without advancing, so it
has not been answered with no.  The operand of a left recursion is among these, and
a seed that is replayed ends where the operand has ended.  So the calls stay among
the nodes that the search has visited until a leaf of them moves.

A leaf does the same wherever it is called at one position, since it looks at
nothing else.  Leaves of the author's own do, and are not meant here.
-/

variable {L : Signature}

/-- A context that starts afresh is at its place. -/
theorem Snapshot.fresh_staysIn (first : Snapshot L) :
    first.fresh.StaysIn (· = first.position) where
  position := rfl
  seeds key seed planted := by cases planted

/-! ## Leaves -/

/-- Where a leaf ends depends on where it starts, and on nothing else of the
context. -/
theorem Leaf.run_position (input : L.Input) {atom : Leaf L PatternProgram}
    (noCustom : forall name act, atom ≠ .custom name act) (self other : NodeId)
    {first second : Context L} (same : first.position = second.position) :
    (atom.run input self first).2.position = (atom.run input other second).2.position := by
  cases atom with
  | exact literal =>
      simp only [run, same]
      split
      · rfl
      · exact same
  | charset set label read =>
      simp only [run, same]
      split
      · split
        · rfl
        · exact same
      · exact same
  | pattern source program text =>
      simp only [run, same]
      split
      · exact same
      · split
        · rfl
        · exact same
  | empty => exact same
  | eof =>
      simp only [run, same]
      split
      · rfl
      · exact same
  | fail message payload => exact same
  | custom name act => exact absurd rfl (noCustom name act)

/-- After the end of the input no leaf advances. -/
theorem Leaf.run_beyond {input : L.Input} {atom : Leaf L PatternProgram}
    (reads : atom.ReadsWithin input) (noCustom : forall name act, atom ≠ .custom name act)
    (self : NodeId) {context : Context L} (beyond : Stream.length input < context.position) :
    (atom.run input self context).2.position = context.position := by
  cases atom with
  | exact literal =>
      simp only [run]
      split
      · rename_i isMatch
        have room := reads context.position isMatch
        omega
      · rfl
  | charset set label read =>
      simp only [run]
      split
      · rename_i c width isRead
        have room := (reads context.position c width isRead).2
        omega
      · rfl
  | pattern source program text =>
      simp only [run]
      split
      · rfl
      · rename_i rest dropped
        have total := Text.byteLength_of_dropBytes dropped
        have textInside : Text.byteLength (text input).toList ≤ Stream.length input := reads
        omega
  | empty => rfl
  | eof =>
      simp only [run]
      split <;> rfl
  | fail message payload => rfl
  | custom name act => exact absurd rfl (noCustom name act)

namespace Machine

variable {machine : Machine L}

/-- Whether a leaf that is run by itself matches and advances. -/
def StartsWith (machine : Machine L) (id : NodeId) (first : Snapshot L) : Prop :=
  exists atom value last, machine.grammar.nodes[id]? = some (.leaf atom) ∧
    machine.Comes id first (.ok value) last ∧ first.position < last.position

/-- A leaf that does not advance when it is run by itself stays at the place in every
context. -/
theorem leaf_stays (reads : machine.grammar.ReadsWithin machine.input)
    (unextended : machine.grammar.Unextended) {first : Snapshot L}
    (inside : first.position ≤ Stream.length machine.input) {id : NodeId}
    {atom : Leaf L PatternProgram} (found : machine.grammar.nodes[id]? = some (.leaf atom))
    (idle : ¬machine.StartsWith id first) : atom.StaysIn (· = first.position) machine.input := by
  have noCustom : forall name act, atom ≠ .custom name act := by
    rintro name act rfl
    exact unextended.noCustom id name act found
  have noWrap : ¬atom.Wraps machine.input first.fresh := by
    intro wraps
    cases atom with
    | custom name act => exact noCustom name act rfl
    | _ => exact wraps
  have isRun : machine.run 1 1 id first.fresh =
      .finished (atom.run machine.input id first.fresh).1
        (atom.run machine.input id first.fresh).2 := by
    have free : ¬(0 < machine.maxDepth ∧ machine.maxDepth < 1) := by omega
    rw [run, if_neg free, found]
    rfl
  have alone : (atom.run machine.input id first.fresh).2.position = first.position := by
    have isInside : first.fresh.position ≤ Stream.length machine.input := inside
    rcases atom.run_cases (reads id atom found) id isInside with
      ⟨error, fails, _⟩ | ⟨value, position, matched, _, ahead⟩
    · rw [fails]
      rfl
    · rw [matched] at isRun ⊢
      apply Nat.le_antisymm (Nat.le_of_not_lt _) (ahead noWrap)
      intro advances
      exact idle ⟨atom, value, _, found, ⟨1, _, isRun, rfl⟩, advances⟩
  intro self context isPlace
  exact (atom.run_position machine.input noCustom self id isPlace).trans alone

/-! ## Runs -/

/-- What comes to an outcome is a node. -/
theorem Comes.isNode {id : NodeId} {first last : Snapshot L} {outcome : Outcome L}
    (comes : machine.Comes id first outcome last) : id < machine.grammar.nodeCount := by
  rcases comes with ⟨steps, after, isRun, _⟩
  apply Nat.lt_of_not_le
  intro beyond
  have free : ¬(0 < machine.maxDepth ∧ machine.maxDepth < 1) := by omega
  cases steps with
  | zero => cases isRun
  | succ steps =>
      rw [run, if_neg free, List.getElem?_eq_none beyond] at isRun
      cases isRun

/-- A call at the place where a clause starts is of an operand that the search for
leaves goes on to, unless the clause looks ahead. -/
theorem leads_of_asks {bounds : Bounds L} {nullable : NodeId -> Prop} {self operand : NodeId}
    {context reached : Context L} {clause : Clause L PatternProgram NodeId}
    (noLook : forall inner look negative, clause ≠ .lookahead inner look negative)
    (asked : (clause.contract bounds nullable self context).asks operand reached)
    (stays : context.Stays bounds reached) : clause.Leads nullable operand where
  isLeading := by
    cases clause with
    | lookahead inner look negative => exact absurd rfl (noLook inner look negative)
    | reference name expected target => cases asked.1
    | _ => exact asked.1
  inFront := by
    rintro items gather rfl
    exact (asked.2.2 stays).resolve_right fun plants => plants.elim

/-- If some nodes are closed under what the search for leaves goes on to, and no leaf
among them leads out of a place, a run of one of them that starts there stays. -/
theorem run_stays (plain : machine.grammar.Plain machine.input)
    (reads : machine.grammar.ReadsWithin machine.input)
    (fits : machine.grammar.CountsFit machine.input)
    (covers : machine.Covers machine.grammar.Nullable) {known : Nullability}
    (knows : machine.grammar.Knows known) {region : List NodeId}
    (closed : forall node operand, node ∈ region -> machine.grammar.FirstEdge known node operand ->
      operand ∈ region) {place : Nat}
    (leaves : forall node atom, node ∈ region -> machine.grammar.nodes[node]? = some (.leaf atom) ->
      atom.StaysIn (· = place) machine.input) (steps depth : Nat) {id : NodeId}
    (member : id ∈ region) {context : Context L} (within : context.Within (machine.bounds True))
    (stays : context.StaysIn (· = place)) :
    (machine.run steps depth id context).Honours (endsIn L (· = place)) := by
  induction steps generalizing depth id context with
  | zero => trivial
  | succ steps inductionHypothesis =>
      have leaf : forall clause, machine.grammar.nodes[id]? = some clause ->
          clause.StaysIn (· = place) machine.input := by
        intro clause found
        cases clause with
        | leaf atom => exact leaves id atom member found
        | _ => trivial
      have calls : forall made, made ∈ machine.callsOf steps depth id context ->
          made.2.StaysIn (· = place) ->
            (machine.run steps (depth + 1) made.1 made.2).Honours (endsIn L (· = place)) := by
        intro made isCall madeStays
        rcases calls_asked reads fits covers within isCall with ⟨clause, found, asked⟩
        apply inductionHypothesis (depth + 1) _ asked.2.1.within madeStays
        have here : context.Stays (machine.bounds True) made.2 :=
          ⟨trivial, Nat.le_of_eq (madeStays.position.trans stays.position.symm)⟩
        have leads := leads_of_asks
          (by
            rintro inner look negative rfl
            exact plain.noLookahead id inner look negative found)
          asked here
        apply closed id made.1 member
        refine ⟨clause, found, leads.imp ?_⟩
        intro item nullable denied
        exact (machine.grammar.isNullable_refutes item known knows).2
          (machine.grammar.isNullableWithin_of_denied _ denied) nullable
      exact (step_staysIn id leaf stays calls).2

/-- After the end of the input nothing advances. -/
theorem run_beyond (reads : machine.grammar.ReadsWithin machine.input)
    (unextended : machine.grammar.Unextended) {first last : Snapshot L}
    (beyond : Stream.length machine.input < first.position) {id : NodeId} {outcome : Outcome L}
    (comes : machine.Comes id first outcome last) : last.position = first.position := by
  have leaves : machine.grammar.StaysIn (· = first.position) machine.input := by
    intro node atom found self context isPlace
    have isPlace : context.position = first.position := isPlace
    have noCustom : forall name act, atom ≠ .custom name act := by
      rintro name act rfl
      exact unextended.noCustom node name act found
    exact (atom.run_beyond (reads node atom found) noCustom self (isPlace ▸ beyond)).trans isPlace
  rcases comes with ⟨steps, after, isRun, isLast⟩
  have honours := (run_staysIn leaves steps 1 id first.fresh_staysIn).1
  rw [isRun] at honours
  rw [<- isLast]
  exact (endsIn_allows.mp honours).position

end Machine

/-! ## Built grammars -/

/-- Whether every regular expression that can match without consuming matches the
empty text. -/
def Grammar.MatchesEmpty (grammar : Grammar L) : Prop :=
  forall (id : NodeId) source program text,
    grammar.nodes[id]? = some (.leaf (.pattern source program text)) ->
      forall rest found, program.find? rest = some found -> found.stop = 0 ->
        program.isMatch [] = true

namespace GrammarBuilder

/-- If a node of a built grammar is run by itself and ends farther than it started,
a leaf of its first set matches and advances there.  This holds of all nodes and
all places, and whatever has been asked before, as long as nothing makes matches of
its own, nothing looks ahead, and a regular expression that can match without
consuming matches the empty text. -/
theorem build_firstSet_predicts {builder : GrammarBuilder L} {cache after : PatternCache}
    {built : BuiltGrammar L} (accepted : builder.build cache = (.ok built, after))
    (unextended : built.grammar.Unextended) (noLookahead : built.grammar.NoLookahead)
    (matchesEmpty : built.grammar.MatchesEmpty) {known : Nullability}
    (asked : built.grammar.Asked built.known known) {input : L.Input}
    (reads : built.grammar.ReadsWithin input) {id : NodeId} {first last : Snapshot L}
    {outcome : Outcome L} (comes : (built.grammar.machine input).Comes id first outcome last)
    (advances : first.position < last.position) :
    exists leaf, leaf ∈ (built.grammar.firstSet id known).1 ∧
      (built.grammar.machine input).StartsWith leaf first := by
  let machine := built.grammar.machine input
  have ordered := build_ordered accepted
  rcases build_advances accepted with ⟨knows, loopsAdvance⟩
  have plain : built.grammar.Plain input := by
    constructor
    · exact noLookahead
    · exact unextended.noRecovery
    · intro node name act found
      exact absurd found (unextended.noCustom node name act)
    · exact matchesEmpty
  by_contra none
  have idle : forall leaf, leaf ∈ (built.grammar.firstSet id known).1 ->
      ¬machine.StartsWith leaf first :=
    fun leaf member starts => none ⟨leaf, member, starts⟩
  have ends : last.position = first.position := by
    by_cases inside : first.position ≤ Stream.length input
    · rcases built.grammar.firstSet_explores (build_leadsInRange accepted) comes.isNode known with
        ⟨region, isStart, closed, noted⟩
      rcases comes with ⟨steps, after, isRun, isLast⟩
      have later : built.grammar.Asked built.known (built.grammar.firstSet id known).2 :=
        asked.trans (built.grammar.searchFirst_asked _ id ⟨[], [], known⟩)
      have leaves : forall node atom, node ∈ region ->
          machine.grammar.nodes[node]? = some (.leaf atom) ->
            atom.StaysIn (· = first.position) machine.input :=
        fun node atom member found => Machine.leaf_stays reads unextended inside found
          (idle node (noted node atom member found))
      have honours := Machine.run_stays plain reads (unextended.countsFit input)
        (Grammar.nullable_covers plain reads ordered loopsAdvance) (later.knows knows) closed leaves
        steps 1 isStart (Context.within_of_no_seeds inside rfl) first.fresh_staysIn
      rw [isRun] at honours
      rw [<- isLast]
      exact (endsIn_allows.mp honours).position
    · exact Machine.run_beyond reads unextended (Nat.lt_of_not_le inside) comes
  omega

theorem sums_unextended : sumGrammar.Unextended where
  noCustom := by
    intro id name act found
    have member := List.mem_of_getElem? found
    simp [sumGrammar] at member
  noRecovery := (sums_plain "").noRecovery

/-- The text breaks off after the plus sign, where the sum fails.  It has started
with a term, which is in the first set. -/
theorem sums_predicted : exists known,
    sums.build PatternCache.empty = (.ok ⟨sumGrammar, known⟩, PatternCache.empty) ∧
      exists error last, (sumGrammar.machine "1+").Comes 7 ⟨0, ()⟩ (.error error) last ∧
        0 < last.position ∧ exists leaf, leaf ∈ (sumGrammar.firstSet 7 known).1 ∧
          (sumGrammar.machine "1+").StartsWith leaf ⟨0, ()⟩ := by
  rcases sums_accepted with ⟨known, accepted⟩
  have reads : sumGrammar.ReadsWithin "1+" := by
    intro id atom found
    have member := List.mem_of_getElem? found
    simp [sumGrammar] at member
    rcases member with rfl | rfl
    · exact Leaf.exact_readsWithin (L := plainText) "1+" "+"
    · exact Leaf.exact_readsWithin (L := plainText) "1+" "1"
  have comes : exists error, (sumGrammar.machine "1+").Comes 7 ⟨0, ()⟩ (.error error) ⟨2, ()⟩ :=
    ⟨_, 9, _, rfl, rfl⟩
  rcases comes with ⟨error, comes⟩
  have advances : (⟨0, ()⟩ : Snapshot plainText).position < (⟨2, ()⟩ : Snapshot plainText).position :=
    Nat.zero_lt_two
  exact ⟨known, accepted, error, _, comes, advances,
    build_firstSet_predicts accepted sums_unextended (sums_plain "").noLookahead
      (sums_plain "").matchesEmpty .refl reads comes advances⟩

end GrammarBuilder
end SeedGrammar
