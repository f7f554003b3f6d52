import Mathlib.Data.List.Induction
import SeedGrammar.Proofs.Grammar.Settled

namespace SeedGrammar

/-!
# Questions end, and compute each node once

How a question about a node is answered can be said without any bound on nested
questions: what is known answers it, or the clause of the node is inquired into while
the node itself counts as nullable.  Read as rules these make up a relation,
`Grammar.FindsOut`, and a question ends if it is in the relation.  The relation also
lists the nodes whose clauses are inquired into on the way, each when this begins.

Cycles do no harm.  A node that is inquired into is unknown before and is not unknown
any more while this lasts, so nested inquiries are into different nodes, and there are
not more of them than unknown nodes.  In the end the node is known, and stays so.  So
over the whole life of a grammar each node is inquired into once at most, and the
bound that is put on nested questions is never used up, `Grammar.questions_end`.
-/

variable {L : Signature}

/-- What a question is about: a node, or a plan of questions about nodes. -/
inductive Subject where
  | node (id : NodeId)
  | plan (inquiry : Inquiry)

/-- How an answer is found, given what is known: with the nodes whose clauses are
inquired into on the way, and what is known afterwards. -/
inductive Grammar.FindsOut (grammar : Grammar L) :
    Subject -> Nullability -> List NodeId -> Bool × Nullability -> Prop where
  | unlisted {id known} : known.get? id = none ->
      FindsOut grammar (.node id) known [] (false, known)
  | known {id known answer} : known.get? id = some (.known answer) ->
      FindsOut grammar (.node id) known [] (answer, known)
  | computing {id known} : known.get? id = some .computing ->
      FindsOut grammar (.node id) known [] (true, known)
  | computed {id known clause inner answer after} : known.get? id = some .unknown ->
      grammar.nodes[id]? = some clause ->
      FindsOut grammar (.plan clause.inquiry) (known.set id .computing) inner (answer, after) ->
      FindsOut grammar (.node id) known (id :: inner) (answer, after.set id (.known answer))
  | answered {answer known} : FindsOut grammar (.plan (.answered answer)) known [] (answer, known)
  | granted {id rest known first next more result} :
      FindsOut grammar (.node id) known first (true, next) ->
      FindsOut grammar (.plan rest) next more result ->
      FindsOut grammar (.plan (.needs id rest)) known (first ++ more) result
  | refused {id rest known first next} : FindsOut grammar (.node id) known first (false, next) ->
      FindsOut grammar (.plan (.needs id rest)) known first (false, next)
  | accepted {id rest known first next} : FindsOut grammar (.node id) known first (true, next) ->
      FindsOut grammar (.plan (.offers id rest)) known first (true, next)
  | declined {id rest known first next more result} :
      FindsOut grammar (.node id) known first (false, next) ->
      FindsOut grammar (.plan rest) next more result ->
      FindsOut grammar (.plan (.offers id rest)) known (first ++ more) result

namespace Nullability

variable {known middle later : Nullability} {id : NodeId}

/-- What is unknown later was unknown before. -/
theorem Extends.unknown_before (longer : known.Extends later)
    (isUnknown : later.get? id = some .unknown) : known.get? id = some .unknown := by
  have inRange : id < known.cells.length := by
    rw [<- longer.length]
    exact (List.getElem?_eq_some_iff.mp isUnknown).1
  have listed : known.get? id = some known.cells[id] := List.getElem?_eq_getElem inRange
  cases status : known.cells[id] with
  | unknown => rw [listed, status]
  | computing =>
      rw [status] at listed
      rw [(longer.computing id).mpr listed] at isUnknown
      cases isUnknown
  | known answer =>
      rw [status] at listed
      rw [longer.kept id answer listed] at isUnknown
      cases isUnknown

end Nullability

namespace Grammar

variable {grammar : Grammar L} {known middle later : Nullability} {subject : Subject}

/-! ## What is inquired into -/

/-- What the nodes that are inquired into have in common: they are different, unknown
before and known afterwards.  Apart from them, what is known is kept. -/
structure ComputesOnce (known : Nullability) (computed : List NodeId) (later : Nullability) :
    Prop where
  longer : known.Extends later
  nodup : computed.Nodup
  wasUnknown : forall id, id ∈ computed -> known.get? id = some .unknown
  isKnown : forall id, id ∈ computed -> exists answer, later.get? id = some (.known answer)

theorem ComputesOnce.nothing (known : Nullability) : ComputesOnce known [] known where
  longer := .refl known
  nodup := List.nodup_nil
  wasUnknown id member := by cases member
  isKnown id member := by cases member

theorem ComputesOnce.andThen {first more : List NodeId} (early : ComputesOnce known first middle)
    (late : ComputesOnce middle more later) : ComputesOnce known (first ++ more) later where
  longer := early.longer.trans late.longer
  nodup := by
    refine List.nodup_append.mpr ⟨early.nodup, late.nodup, ?_⟩
    rintro id isFirst _ isMore rfl
    rcases early.isKnown id isFirst with ⟨answer, isKnown⟩
    rw [late.wasUnknown id isMore] at isKnown
    cases isKnown
  wasUnknown id member := by
    rcases List.mem_append.mp member with isFirst | isMore
    · exact early.wasUnknown id isFirst
    · exact early.longer.unknown_before (late.wasUnknown id isMore)
  isKnown id member := by
    rcases List.mem_append.mp member with isFirst | isMore
    · rcases early.isKnown id isFirst with ⟨answer, isKnown⟩
      exact ⟨answer, late.longer.kept id answer isKnown⟩
    · exact late.isKnown id isMore

/-- A node whose clause is inquired into is not inquired into again meanwhile. -/
theorem ComputesOnce.enter {id : NodeId} {inner : List NodeId} (answer : Bool)
    (status : known.get? id = some .unknown)
    (below : ComputesOnce (known.set id .computing) inner later) :
    ComputesOnce known (id :: inner) (later.set id (.known answer)) := by
  have begun : (known.set id .computing).get? id = some .computing :=
    Nullability.get?_set_self status
  have different : forall other, other ∈ inner -> id ≠ other := by
    rintro other member rfl
    have isUnknown := below.wasUnknown id member
    rw [begun] at isUnknown
    cases isUnknown
  constructor
  · exact .computed status below.longer answer
  · exact List.nodup_cons.mpr ⟨fun again => different id again rfl, below.nodup⟩
  · intro other member
    rcases List.mem_cons.mp member with rfl | inside
    · exact status
    · have isUnknown := below.wasUnknown other inside
      rwa [Nullability.get?_set_of_ne (different other inside)] at isUnknown
  · intro other member
    rcases List.mem_cons.mp member with rfl | inside
    · exact ⟨answer, Nullability.get?_set_self ((below.longer.computing other).mpr begun)⟩
    · rw [Nullability.get?_set_of_ne (different other inside)]
      exact below.isKnown other inside

theorem FindsOut.computesOnce {computed : List NodeId} {result : Bool × Nullability}
    (finds : grammar.FindsOut subject known computed result) :
    ComputesOnce known computed result.2 := by
  induction finds with
  | unlisted _ => exact .nothing _
  | known _ => exact .nothing _
  | computing _ => exact .nothing _
  | computed status _ _ below => exact below.enter _ status
  | answered => exact .nothing _
  | granted _ _ early late => exact early.andThen late
  | refused _ early => exact early
  | accepted _ early => exact early
  | declined _ _ early late => exact early.andThen late

/-- There is one way to find an answer. -/
theorem FindsOut.unique {computed computed' : List NodeId} {result result' : Bool × Nullability}
    (finds : grammar.FindsOut subject known computed result)
    (finds' : grammar.FindsOut subject known computed' result') :
    computed = computed' ∧ result = result' := by
  induction finds generalizing computed' result' with
  | unlisted status =>
      cases finds' with
      | unlisted _ => exact ⟨rfl, rfl⟩
      | known status' | computing status' | computed status' _ _ =>
          rw [status] at status'
          cases status'
  | known status =>
      cases finds' with
      | known status' =>
          rw [status] at status'
          cases status'
          exact ⟨rfl, rfl⟩
      | unlisted status' | computing status' | computed status' _ _ =>
          rw [status] at status'
          cases status'
  | computing status =>
      cases finds' with
      | computing _ => exact ⟨rfl, rfl⟩
      | unlisted status' | known status' | computed status' _ _ =>
          rw [status] at status'
          cases status'
  | computed status found _ inductionHypothesis =>
      cases finds' with
      | computed status' found' below' =>
          rw [found] at found'
          cases found'
          rcases inductionHypothesis below' with ⟨rfl, same⟩
          cases same
          exact ⟨rfl, rfl⟩
      | unlisted status' | known status' | computing status' =>
          rw [status] at status'
          cases status'
  | answered =>
      cases finds'
      exact ⟨rfl, rfl⟩
  | granted _ _ early late =>
      cases finds' with
      | granted first' rest' =>
          rcases early first' with ⟨rfl, same⟩
          cases same
          rcases late rest' with ⟨rfl, rfl⟩
          exact ⟨rfl, rfl⟩
      | refused first' => cases (early first').2
  | refused _ early =>
      cases finds' with
      | granted first' _ => cases (early first').2
      | refused first' => exact early first'
  | accepted _ early =>
      cases finds' with
      | accepted first' => exact early first'
      | declined first' _ => cases (early first').2
  | declined _ _ early late =>
      cases finds' with
      | accepted first' => cases (early first').2
      | declined first' rest' =>
          rcases early first' with ⟨rfl, same⟩
          cases same
          rcases late rest' with ⟨rfl, rfl⟩
          exact ⟨rfl, rfl⟩

/-! ## Every question ends -/

/-- Whether everything of which something is known is a node, and no more nodes are
unknown than questions may be nested. -/
structure Affords (grammar : Grammar L) (fuel : Nat) (known : Nullability) : Prop where
  inRange : known.cells.length ≤ grammar.nodeCount
  enough : known.unknownCount ≤ fuel

theorem Affords.after {fuel : Nat} (affords : grammar.Affords fuel known)
    (longer : known.Extends later) : grammar.Affords fuel later where
  inRange := longer.length ▸ affords.inRange
  enough := Nat.le_trans longer.unknown affords.enough

/-- An inquiry ends if the questions do that it is a plan of. -/
theorem exists_findsOut_of_plan {fuel : Nat}
    (ends : forall id known, grammar.Affords fuel known -> exists computed,
      grammar.FindsOut (.node id) known computed (grammar.isNullableWithin fuel id known))
    (inquiry : Inquiry) (affords : grammar.Affords fuel known) : exists computed,
      grammar.FindsOut (.plan inquiry) known computed
        (inquiry.run (grammar.isNullableWithin fuel) known) := by
  induction inquiry generalizing known with
  | answered answer => exact ⟨[], .answered⟩
  | needs id rest inductionHypothesis =>
      rcases ends id known affords with ⟨first, finds⟩
      have longer := grammar.isNullableWithin_extends fuel id known
      rw [Inquiry.run]
      cases asked : grammar.isNullableWithin fuel id known with
      | mk answer next =>
          rw [asked] at finds longer
          cases answer with
          | true =>
              rcases inductionHypothesis (affords.after longer) with ⟨more, findsRest⟩
              exact ⟨first ++ more, .granted finds findsRest⟩
          | false => exact ⟨first, .refused finds⟩
  | offers id rest inductionHypothesis =>
      rcases ends id known affords with ⟨first, finds⟩
      have longer := grammar.isNullableWithin_extends fuel id known
      rw [Inquiry.run]
      cases asked : grammar.isNullableWithin fuel id known with
      | mk answer next =>
          rw [asked] at finds longer
          cases answer with
          | true => exact ⟨first, .accepted finds⟩
          | false =>
              rcases inductionHypothesis (affords.after longer) with ⟨more, findsRest⟩
              exact ⟨first ++ more, .declined finds findsRest⟩

/-- The bound on nested questions is not used up, since each of them takes an unknown
node away.  The induction is on the bound. -/
theorem exists_findsOut (fuel : Nat) (id : NodeId) (affords : grammar.Affords fuel known) :
    exists computed,
      grammar.FindsOut (.node id) known computed (grammar.isNullableWithin fuel id known) := by
  induction fuel using Nat.strong_induction_on generalizing id known with
  | _ fuel inductionHypothesis =>
      have question := grammar.isNullableWithin_question fuel id known
      generalize grammar.isNullableWithin fuel id known = result at question ⊢
      cases question with
      | unlisted status => exact ⟨[], .unlisted status⟩
      | known status => exact ⟨[], .known status⟩
      | computing status => exact ⟨[], .computing status⟩
      | spent status reason =>
          have inCells := (List.getElem?_eq_some_iff.mp status).1
          rcases reason with rfl | noNode
          · have positive : 0 < known.unknownCount :=
              List.count_pos_iff.mpr (List.mem_of_getElem? status)
            exact absurd affords.enough (Nat.not_le_of_lt positive)
          · exact absurd (Nat.lt_of_lt_of_le inCells affords.inRange)
              (Nat.not_lt_of_le (List.getElem?_eq_none_iff.mp noNode))
      | @computed fewer clause answer after status found asked =>
          have used := Nullability.unknownCount_begun status
          have begun : grammar.Affords fewer (known.set id .computing) := by
            refine ⟨Nat.le_trans (Nat.le_of_eq Nullability.length_set) affords.inRange, ?_⟩
            have enough := affords.enough
            omega
          rcases exists_findsOut_of_plan
              (fun other before => inductionHypothesis fewer (Nat.lt_succ_self fewer) other)
              clause.inquiry begun with ⟨inner, finds⟩
          rw [asked] at finds
          exact ⟨id :: inner, .computed status found finds⟩

/-! ## Histories -/

/-- Questions about nodes that are put one after the other to a grammar of which
nothing is known, with what is known in the end, and all nodes whose clauses have been
inquired into. -/
inductive History (grammar : Grammar L) : List NodeId -> Nullability -> List NodeId -> Prop where
  | start : History grammar [] (Nullability.unknown grammar.nodeCount) []
  | ask {queries known computed id more answer later} : History grammar queries known computed ->
      grammar.FindsOut (.node id) known more (answer, later) ->
      History grammar (queries ++ [id]) later (computed ++ more)

/-- What holds after some questions about nodes: none of them is going on, no clause
has been inquired into twice, the next question ends as well, what has been answered
stays whatever is asked, and a node that is nullable gets the answer yes. -/
structure Orderly (grammar : Grammar L) (queries : List NodeId) (known : Nullability)
    (computed : List NodeId) : Prop where
  isKnown : known =
    grammar.knownAfter (queries.map .nullable) (Nullability.unknown grammar.nodeCount)
  once : computed.Nodup
  idle : forall id, known.get? id ≠ some .computing
  next : forall id, exists more, grammar.FindsOut (.node id) known more (grammar.isNullable id known)
  kept : forall others id answer, known.get? id = some (.known answer) ->
    (grammar.knownAfter others known).get? id = some (.known answer)
  nullable : forall id, grammar.Nullable id -> (grammar.isNullable id known).1 = true

theorem Rests.findsOut (rests : grammar.Rests known) (id : NodeId) : exists more,
    grammar.FindsOut (.node id) known more (grammar.isNullable id known) :=
  exists_findsOut grammar.nodeCount id ⟨Nat.le_of_eq rests.length, rests.enough⟩

/-- Histories lead from where nothing is known to what is known after the questions. -/
theorem History.isKnown {queries computed : List NodeId}
    (history : grammar.History queries known computed) :
    known = grammar.knownAfter (queries.map .nullable) (Nullability.unknown grammar.nodeCount) ∧
      grammar.Rests known := by
  induction history with
  | start => exact ⟨rfl, grammar.rests_unknown⟩
  | @ask queries known computed id more answer later _ finds inductionHypothesis =>
      rcases inductionHypothesis with ⟨isKnown, rests⟩
      rcases rests.findsOut id with ⟨more', finds'⟩
      have isLater : later = (grammar.isNullable id known).2 :=
        congrArg Prod.snd (finds.unique finds').2
      refine ⟨?_, isLater ▸ rests.ask id⟩
      rw [List.map_append, knownAfter, List.foldl_append, isLater, isKnown]
      rfl

theorem History.computesOnce {queries computed : List NodeId}
    (history : grammar.History queries known computed) :
    ComputesOnce (Nullability.unknown grammar.nodeCount) computed known := by
  induction history with
  | start => exact .nothing _
  | ask _ finds inductionHypothesis => exact inductionHypothesis.andThen finds.computesOnce

theorem exists_history (grammar : Grammar L) (queries : List NodeId) :
    exists known computed, grammar.History queries known computed := by
  induction queries using List.reverseRecOn with
  | nil => exact ⟨_, [], .start⟩
  | append_singleton queries id inductionHypothesis =>
      rcases inductionHypothesis with ⟨known, computed, history⟩
      rcases history.isKnown.2.findsOut id with ⟨more, finds⟩
      exact ⟨_, computed ++ more, .ask history finds⟩

/-- Whatever is asked about nodes, and in whichever order, every question ends, and
leaves things in order.  Each part of a question keeps what has been answered before
it, and inquires into nodes that are unknown before it and known afterwards. -/
theorem questions_end (grammar : Grammar L) (queries : List NodeId) :
    (exists known computed, grammar.History queries known computed) ∧
      (forall known computed, grammar.History queries known computed ->
        grammar.Orderly queries known computed) ∧
      forall subject known computed result, grammar.FindsOut subject known computed result ->
        ComputesOnce known computed result.2 := by
  refine ⟨grammar.exists_history queries, ?_, fun _ _ _ _ finds => finds.computesOnce⟩
  intro known computed history
  rcases history.isKnown with ⟨isKnown, rests⟩
  have knows : grammar.Knows known := by
    rw [isKnown]
    exact (grammar.knownAfter_asked _ _).knows grammar.knows_unknown
  constructor
  · exact isKnown
  · exact history.computesOnce.nodup
  · exact rests.idle
  · exact rests.findsOut
  · intro others id answer
    exact (grammar.knownAfter_asked others known).extends.kept id answer
  · intro id isNullable
    by_contra no
    exact (grammar.isNullable_refutes id known knows).2 (Bool.eq_false_iff.mpr no) isNullable

end Grammar

/-- The nodes of two rules that start with each other, one of them with a letter after it. -/
def GrammarBuilder.knotGrammar : Grammar plainText :=
  ⟨[.reference "b" .text (some 4), .leaf (.exact "x"), .sequence [4, 1] (.pick 0),
      .reference "a" .text (some 2), .attempt 2],
    [⟨"a", .text, 2⟩, ⟨"b", .text, 4⟩]⟩

/-- Asking about the first rule of the knot inquires into the second and into the letter
as well.  Nothing is left to inquire into when these are asked about. -/
theorem GrammarBuilder.knot_questions_end : exists known,
    knotGrammar.History [2, 4, 1] known [2, 4, 1] ∧
      knotGrammar.Orderly [2, 4, 1] known [2, 4, 1] := by
  let begun := (Nullability.unknown 5).set 2 .computing
  let assumed := (begun.set 4 .computing).set 4 (.known true)
  let refuted := (assumed.set 1 .computing).set 1 (.known false)
  have second : knotGrammar.FindsOut (.node 4) begun (4 :: ([] ++ [])) (true, assumed) :=
    .computed rfl rfl (.granted (.computing rfl) .answered)
  have letter : knotGrammar.FindsOut (.node 1) assumed [1] (false, refuted) :=
    .computed rfl rfl .answered
  have first : knotGrammar.FindsOut (.node 2) (Nullability.unknown 5)
      (2 :: ([4] ++ [1])) (false, refuted.set 2 (.known false)) :=
    .computed rfl rfl (.granted second (.refused letter))
  have history : knotGrammar.History (([] ++ [2]) ++ [4] ++ [1]) _ (([] ++ [2, 4, 1]) ++ [] ++ []) :=
    .ask (.ask (.ask .start first) (.known rfl)) (.known rfl)
  exact ⟨_, history, (knotGrammar.questions_end [2, 4, 1]).2.1 _ _ history⟩

end SeedGrammar
