import Mathlib.Logic.Relation
import SeedGrammar.Grammar.Lint
import SeedGrammar.Proofs.Grammar.Nullability

namespace SeedGrammar

/-!
# Histories of questions

A grammar is asked whether a node is nullable, for the leaves that can start a
match, and for warnings.  All of these come down to questions about nodes, each
of which is put with what the earlier ones have left behind.

An answer that has been given stays.  Nodes whose answers are being computed are
left alone by the questions in between, and a question uses up unknown nodes,
so nested ones run out of these before they run out of fuel.  And an answer of
no is justified by what is known as a whole: the clause of the node is refuted
by nodes that have been answered with no themselves.
-/

/-- Where a search for leaves may go on from a clause. -/
def Clause.leading {L : Signature} {ρ α : Type} : Clause L ρ α -> List α
  | lookahead inner _ _ => [inner]
  | clause => clause.successors

namespace Nullability

/-- How many nodes nothing is known about. -/
def unknownCount (known : Nullability) : Nat :=
  known.cells.count .unknown

/-- Whether what is known later keeps what has been answered and what is being
computed. -/
structure Extends (known later : Nullability) : Prop where
  length : later.cells.length = known.cells.length
  kept : forall id answer, known.get? id = some (.known answer) ->
    later.get? id = some (.known answer)
  computing : forall id, later.get? id = some .computing ↔ known.get? id = some .computing
  unknown : later.unknownCount ≤ known.unknownCount

variable {known middle later : Nullability} {id : NodeId}

theorem Extends.refl (known : Nullability) : known.Extends known where
  length := rfl
  kept _ _ found := found
  computing _ := Iff.rfl
  unknown := Nat.le_refl _

theorem Extends.trans (first : known.Extends middle) (second : middle.Extends later) :
    known.Extends later where
  length := second.length.trans first.length
  kept other answer found := second.kept other answer (first.kept other answer found)
  computing other := (second.computing other).trans (first.computing other)
  unknown := Nat.le_trans second.unknown first.unknown

theorem get?_unknown {count : Nat} {status : NullStatus}
    (found : (unknown count).get? id = some status) : status = .unknown :=
  List.eq_of_mem_replicate (List.mem_of_getElem? found)

/-- To begin with a node uses it up. -/
theorem unknownCount_begun (status : known.get? id = some .unknown) :
    (known.set id .computing).unknownCount + 1 = known.unknownCount := by
  rcases List.getElem?_eq_some_iff.mp status with ⟨inRange, isUnknown⟩
  have positive : 0 < known.cells.count .unknown :=
    List.count_pos_iff.mpr (List.mem_of_getElem? status)
  have other : (NullStatus.computing == NullStatus.unknown) = false := rfl
  rw [unknownCount, unknownCount, set, List.count_set inRange, isUnknown, beq_self_eq_true, other]
  exact Nat.sub_add_cancel positive

/-- To replace the status of a node by an answer brings no unknown node back. -/
theorem unknownCount_answered (known : Nullability) (id : NodeId) (answer : Bool) :
    (known.set id (.known answer)).unknownCount ≤ known.unknownCount := by
  rw [unknownCount, unknownCount, set]
  by_cases inRange : id < known.cells.length
  · have other : (NullStatus.known answer == NullStatus.unknown) = false := rfl
    rw [List.count_set inRange, other]
    exact Nat.sub_le _ _
  · rw [List.set_eq_of_length_le (Nat.le_of_not_lt inRange)]

/-- A node that was unknown has been computed, with other questions in between. -/
theorem Extends.computed (status : known.get? id = some .unknown)
    (between : (known.set id .computing).Extends later) (answer : Bool) :
    known.Extends (later.set id (.known answer)) where
  length := by
    rw [length_set, between.length, length_set]
  kept other answer' found := by
    have different : id ≠ other := by
      rintro rfl
      rw [status] at found
      cases found
    rw [get?_set_of_ne different]
    apply between.kept
    rwa [get?_set_of_ne different]
  computing other := by
    by_cases same : id = other
    · subst same
      have begun := (between.computing id).mpr (get?_set_self status)
      rw [get?_set_self begun, status]
      constructor <;> rintro ⟨⟩
    · rw [get?_set_of_ne same, between.computing, get?_set_of_ne same]
  unknown := by
    have used := unknownCount_begun status
    have answered := unknownCount_answered later id answer
    have fewer := between.unknown
    omega

end Nullability

namespace Grammar

variable {L : Signature} {grammar : Grammar L}

/-- A question keeps what has been answered and leaves nodes that are being
computed alone. -/
theorem isNullableWithin_extends (grammar : Grammar L) (fuel : Nat) (id : NodeId)
    (known : Nullability) : known.Extends (grammar.isNullableWithin fuel id known).2 := by
  induction fuel using Nat.strong_induction_on generalizing id known with
  | _ fuel inductionHypothesis =>
      have question := grammar.isNullableWithin_question fuel id known
      generalize grammar.isNullableWithin fuel id known = result at question ⊢
      cases question with
      | @computed fewer clause answer after status _ asked =>
          have asks : forall other before, (known.set id .computing).Extends before ->
              (known.set id .computing).Extends (grammar.isNullableWithin fewer other before).2 :=
            fun other before early =>
              early.trans (inductionHypothesis fewer (Nat.lt_succ_self fewer) other before)
          have between := clause.inquiry.run_keeps asks (.refl _)
          rw [asked] at between
          exact between.computed status answer
      | _ => exact .refl known

theorem inquiry_extends (grammar : Grammar L) (fuel : Nat) (inquiry : Inquiry)
    (known : Nullability) :
    known.Extends (inquiry.run (grammar.isNullableWithin fuel) known).2 := by
  have asks : forall other before, known.Extends before ->
      known.Extends (grammar.isNullableWithin fuel other before).2 :=
    fun other before early => early.trans (grammar.isNullableWithin_extends fuel other before)
  exact inquiry.run_keeps asks (.refl known)

/-- Whether some questions about nodes lead from what is known to what is known
later. -/
def Asked (grammar : Grammar L) : Nullability -> Nullability -> Prop :=
  Relation.ReflTransGen fun before after => exists id, after = (grammar.isNullable id before).2

theorem Asked.single (grammar : Grammar L) (id : NodeId) (known : Nullability) :
    grammar.Asked known (grammar.isNullable id known).2 :=
  Relation.ReflTransGen.single ⟨id, rfl⟩

theorem Asked.of_answer {id : NodeId} {known next : Nullability} {answer : Bool}
    (given : grammar.isNullable id known = (answer, next)) : grammar.Asked known next := by
  have asked := Asked.single grammar id known
  rwa [given] at asked

/-- What a single question preserves is preserved by all. -/
theorem Asked.keeps {invariant : Nullability -> Prop}
    (keeps : forall id known, invariant known -> invariant (grammar.isNullable id known).2)
    {before after : Nullability} (asked : grammar.Asked before after) (holds : invariant before) :
    invariant after := by
  induction asked with
  | refl => exact holds
  | tail _ step inductionHypothesis =>
      rcases step with ⟨id, rfl⟩
      exact keeps id _ inductionHypothesis

theorem Asked.knows {before after : Nullability} (asked : grammar.Asked before after)
    (knows : grammar.Knows before) : grammar.Knows after :=
  asked.keeps (fun id known holds => (grammar.isNullable_refutes id known holds).1) knows

theorem Asked.extends {before after : Nullability} (asked : grammar.Asked before after) :
    before.Extends after := by
  have keeps : forall id known, before.Extends known ->
      before.Extends (grammar.isNullable id known).2 :=
    fun id known early => early.trans (grammar.isNullableWithin_extends _ id known)
  exact asked.keeps keeps (.refl before)

/-! ## Answers of no -/

/-- Whether a node has been answered with no, unless it does not exist. -/
def Denied (known : Nullability) (id : NodeId) : Prop :=
  forall status, known.get? id = some status -> status = .known false

/-- Whether everything that has been answered with no is refuted by what has
been. -/
def Justified (grammar : Grammar L) (known : Nullability) : Prop :=
  forall id clause, Denied known id -> grammar.nodes[id]? = some clause ->
    ¬clause.NullableFrom fun node => ¬Denied known node

variable {known later : Nullability} {id other : NodeId}

theorem Denied.extends (denied : Denied known id) (longer : known.Extends later) :
    Denied later id := by
  intro status found
  have inRange : id < known.cells.length := by
    rw [<- longer.length]
    exact (List.getElem?_eq_some_iff.mp found).1
  have before : known.get? id = some known.cells[id] := List.getElem?_eq_getElem inRange
  have isNo := denied _ before
  rw [isNo] at before
  rw [longer.kept id false before] at found
  exact (Option.some.inj found).symm

/-- A replacement denies no other node, and denies its own only by a no. -/
theorem Denied.of_set {status : NullStatus} (listed : known.get? id ≠ none)
    (denied : Denied (known.set id status) other) :
    (id = other ∧ status = .known false) ∨ Denied known other := by
  by_cases same : id = other
  · subst same
    rcases Option.ne_none_iff_exists'.mp listed with ⟨old, found⟩
    exact Or.inl ⟨rfl, denied status (Nullability.get?_set_self found)⟩
  · right
    intro found isFound
    apply denied
    rwa [Nullability.get?_set_of_ne same]

theorem Denied.set {status old : NullStatus} (denied : Denied known other)
    (found : known.get? id = some old) (allowed : old ≠ .known false) :
    Denied (known.set id status) other := by
  have different : id ≠ other := by
    rintro rfl
    exact allowed (denied old found)
  intro now isNow
  rw [Nullability.get?_set_of_ne different] at isNow
  exact denied now isNow

theorem Justified.set (justified : grammar.Justified known) {status old : NullStatus}
    (found : known.get? id = some old) (allowed : old ≠ .known false)
    (right : status = .known false -> forall clause, grammar.nodes[id]? = some clause ->
      ¬clause.NullableFrom fun node => ¬Denied known node) :
    grammar.Justified (known.set id status) := by
  have fewer : forall node, ¬Denied (known.set id status) node -> ¬Denied known node :=
    fun node spared denied => spared (denied.set found allowed)
  intro node clause denied isNode nullable
  have listed : known.get? id ≠ none := by
    rw [found]
    exact Option.some_ne_none old
  rcases Denied.of_set listed denied with ⟨rfl, isNo⟩ | before
  · exact right isNo clause isNode (nullable.imp fewer)
  · exact justified node clause before isNode (nullable.imp fewer)

theorem justified_unknown (grammar : Grammar L) :
    grammar.Justified (Nullability.unknown grammar.nodeCount) := by
  intro id clause denied found
  have inRange : id < grammar.nodeCount := (List.getElem?_eq_some_iff.mp found).1
  have isUnknown : (Nullability.unknown grammar.nodeCount).get? id = some .unknown :=
    List.getElem?_replicate_of_lt inRange
  cases denied _ isUnknown

/-- A node that is answered with no is denied from then on. -/
theorem isNullableWithin_denies (grammar : Grammar L) (fuel : Nat)
    (no : (grammar.isNullableWithin fuel id known).1 = false) :
    Denied (grammar.isNullableWithin fuel id known).2 id := by
  have question := grammar.isNullableWithin_question fuel id known
  generalize grammar.isNullableWithin fuel id known = result at no question ⊢
  intro own isOwn
  cases question with
  | unlisted status =>
      rw [status] at isOwn
      cases isOwn
  | known status =>
      rw [status] at isOwn
      rw [<- Option.some.inj isOwn]
      exact congrArg NullStatus.known no
  | computing _ => cases no
  | spent _ _ => cases no
  | @computed fewer clause answer after status _ asked =>
      have isComputing := ((grammar.inquiry_extends fewer clause.inquiry
        (known.set id .computing)).computing id).mpr (Nullability.get?_set_self status)
      rw [asked] at isComputing
      rw [Nullability.get?_set_self isComputing] at isOwn
      rw [<- Option.some.inj isOwn]
      exact congrArg NullStatus.known no

/-- Whether questions keep answers of no justified, and an answer of no is kept. -/
def KeepsJustified (grammar : Grammar L) (ask : NullQuestion) : Prop :=
  forall id known, grammar.Justified known -> grammar.Justified (ask id known).2 ∧
    ((ask id known).1 = false -> Denied (ask id known).2 id)

/-- A node that is computed keeps answers of no justified if those do that it asks
about. -/
theorem computed_justified {fuel : Nat} {known after : Nullability} {id : NodeId}
    {clause : Clause L PatternProgram NodeId} {answer : Bool}
    (keeps : grammar.KeepsJustified (grammar.isNullableWithin fuel))
    (justified : grammar.Justified known) (status : known.get? id = some .unknown)
    (found : grammar.nodes[id]? = some clause)
    (asked : clause.inquiry.run (grammar.isNullableWithin fuel) (known.set id .computing) =
      (answer, after)) :
    grammar.Justified (after.set id (.known answer)) := by
  have asks : forall other before, grammar.Justified before ->
      grammar.Justified (grammar.isNullableWithin fuel other before).2 ∧
        Inquiry.Denies Denied other before (grammar.isNullableWithin fuel other before) := by
    intro other before holds
    have ends := keeps other before holds
    have longer := grammar.isNullableWithin_extends fuel other before
    exact ⟨ends.1, fun node denied => denied.extends longer, ends.2⟩
  have begun : grammar.Justified (known.set id .computing) := by
    apply justified.set status
    · intro same
      cases same
    · intro same
      cases same
  have kept := clause.inquiry.run_keeps (fun other before holds => (asks other before holds).1)
    begun
  have denies := (clause.inquiry.run_denies asks begun).2
  have isComputing := ((grammar.inquiry_extends fuel clause.inquiry
    (known.set id .computing)).computing id).mpr (Nullability.get?_set_self status)
  rw [asked] at kept denies isComputing
  apply kept.set isComputing
  · intro same
    cases same
  · rintro isNo clause' found'
    rw [found] at found'
    cases found'
    exact fun nullable =>
      denies (NullStatus.known.inj isNo) (Clause.nullableFrom_iff.mp nullable)

theorem isNullableWithin_justified (grammar : Grammar L) (fuel : Nat) :
    grammar.KeepsJustified (grammar.isNullableWithin fuel) := by
  induction fuel using Nat.strong_induction_on with
  | _ fuel inductionHypothesis =>
      intro id known justified
      refine ⟨?_, grammar.isNullableWithin_denies fuel⟩
      have question := grammar.isNullableWithin_question fuel id known
      generalize grammar.isNullableWithin fuel id known = result at question ⊢
      cases question with
      | @computed fewer clause answer after status found asked =>
          exact computed_justified (inductionHypothesis fewer (Nat.lt_succ_self fewer)) justified
            status found asked
      | _ => exact justified

/-- A node that has been denied is answered with no. -/
theorem isNullableWithin_of_denied (grammar : Grammar L) (fuel : Nat) (denied : Denied known id) :
    (grammar.isNullableWithin fuel id known).1 = false := by
  have question := grammar.isNullableWithin_question fuel id known
  generalize grammar.isNullableWithin fuel id known = result at question ⊢
  cases question with
  | unlisted _ => rfl
  | known status => exact NullStatus.known.inj (denied _ status)
  | computing status => cases denied _ status
  | spent status _ => cases denied _ status
  | computed status _ _ => cases denied _ status

/-! ## Other questions -/

theorem searchItems_asked {search : NodeId -> FirstSearch -> FirstSearch}
    (asks : forall id state, grammar.Asked state.known (search id state).known)
    (items : List NodeId) (state : FirstSearch) :
    grammar.Asked state.known (grammar.searchItems search items state).known := by
  induction items generalizing state with
  | nil => exact .refl
  | cons id rest inductionHypothesis =>
      have first := (asks id state).trans (Asked.single grammar id (search id state).known)
      rw [searchItems]
      cases answer : grammar.isNullable id (search id state).known with
      | mk isNullable next =>
          rw [answer] at first
          cases isNullable with
          | true =>
              exact first.trans
                (inductionHypothesis { search id state with known := next })
          | false => exact first

/-- What a search for leaves does at a clause: it notes a leaf, follows the items
of a sequence as far as these are nullable, or follows all operands. -/
def searchClause (grammar : Grammar L) (search : NodeId -> FirstSearch -> FirstSearch)
    (id : NodeId) (state : FirstSearch) : Clause L PatternProgram NodeId -> FirstSearch
  | .leaf _ => { state with leaves := id :: state.leaves }
  | .sequence items _ => grammar.searchItems search items state
  | clause => clause.leading.foldl (fun state operand => search operand state) state

/-- A search for leaves does nothing at a node where it has been. -/
theorem searchFirst_succ (grammar : Grammar L) (fuel : Nat) (id : NodeId) (state : FirstSearch) :
    grammar.searchFirst (fuel + 1) id state =
      if id ∈ state.visited then state
      else
        let entered := { state with visited := id :: state.visited }
        match grammar.nodes[id]? with
        | none => entered
        | some clause => grammar.searchClause (grammar.searchFirst fuel) id entered clause := by
  rw [searchFirst]
  split
  · rfl
  · cases grammar.nodes[id]? with
    | none => rfl
    | some clause =>
        cases clause with
        | reference name expected target => cases target <;> rfl
        | _ => rfl

theorem searchFirst_asked (grammar : Grammar L) (fuel : Nat) (id : NodeId) (state : FirstSearch) :
    grammar.Asked state.known (grammar.searchFirst fuel id state).known := by
  induction fuel generalizing id state with
  | zero => exact .refl
  | succ fuel inductionHypothesis =>
      have several : forall (operands : List NodeId) (state : FirstSearch),
          grammar.Asked state.known (operands.foldl
            (fun state operand => grammar.searchFirst fuel operand state) state).known := by
        intro operands
        induction operands with
        | nil => exact fun _ => .refl
        | cons operand rest restAsked =>
            exact fun state => (inductionHypothesis operand state).trans (restAsked _)
      rw [searchFirst_succ]
      split
      · exact .refl
      · cases grammar.nodes[id]? with
        | none => exact .refl
        | some clause =>
            let entered : FirstSearch := { state with visited := id :: state.visited }
            cases clause with
            | leaf atom => exact .refl
            | sequence items gather => exact searchItems_asked inductionHypothesis items entered
            | _ => exact several _ entered

theorem leadingItems_asked (grammar : Grammar L) (items : List NodeId) (known : Nullability) :
    grammar.Asked known (grammar.leadingItems items known).2 := by
  induction items generalizing known with
  | nil => exact .refl
  | cons id rest inductionHypothesis =>
      have first := Asked.single grammar id known
      rw [leadingItems]
      cases answer : grammar.isNullable id known with
      | mk isNullable next =>
          rw [answer] at first
          cases isNullable with
          | true => exact first.trans (inductionHypothesis next)
          | false => exact first

theorem leftEdges_asked (grammar : Grammar L) (id : NodeId) (known : Nullability) :
    grammar.Asked known (grammar.leftEdges id known).2 := by
  rw [leftEdges]
  split
  · exact grammar.leadingItems_asked _ known
  all_goals exact .refl

theorem tryEdges_asked (target : NodeId)
    {search : NodeId -> PathSearch -> Option (List NodeId) × PathSearch}
    (asks : forall id state, grammar.Asked state.known (search id state).2.known)
    (edges : List NodeId) (state : PathSearch) :
    grammar.Asked state.known (tryEdges target search edges state).2.known := by
  induction edges generalizing state with
  | nil => exact .refl
  | cons next rest inductionHypothesis =>
      rw [tryEdges]
      split
      · exact .refl
      · split
        · exact inductionHypothesis state
        · have first := asks next { state with visited := next :: state.visited }
          split
          · rename_i found
            rw [found] at first
            exact first
          · rename_i found
            rw [found] at first
            exact first.trans (inductionHypothesis _)

theorem searchPath_asked (grammar : Grammar L) (target : NodeId) (fuel : Nat) (id : NodeId)
    (state : PathSearch) :
    grammar.Asked state.known (grammar.searchPath target fuel id state).2.known := by
  induction fuel generalizing id state with
  | zero => exact .refl
  | succ fuel inductionHypothesis =>
      have edges := grammar.leftEdges_asked id state.known
      rw [searchPath]
      cases found : grammar.leftEdges id state.known with
      | mk ends known =>
          rw [found] at edges
          have tried := tryEdges_asked target inductionHypothesis ends
            { state with known := known }
          dsimp only
          split
          · rename_i result
            rw [result] at tried
            exact edges.trans tried
          · rename_i result
            rw [result] at tried
            exact edges.trans tried

theorem leftRecursionWarnings_asked (grammar : Grammar L) (rules : List (Rule L))
    (known : Nullability) : grammar.Asked known (grammar.leftRecursionWarnings rules known).2 := by
  induction rules generalizing known with
  | nil => exact .refl
  | cons rule rest inductionHypothesis =>
      have first := grammar.searchPath_asked rule.root (grammar.nodeCount + 1) rule.root ⟨[], known⟩
      have cycle : grammar.Asked known (grammar.leftCycle rule.root known).2 := first
      rw [leftRecursionWarnings]
      split
      · rename_i found
        rw [found] at cycle
        exact cycle.trans (inductionHypothesis _)
      · rename_i found
        rw [found] at cycle
        exact cycle.trans (inductionHypothesis _)

/-- A question about a grammar. -/
inductive Query where
  | nullable (id : NodeId)
  | firstSet (id : NodeId)
  | warnings (root : String)

/-- What is known after a question. -/
def Query.pose (grammar : Grammar L) : Query -> Nullability -> Nullability
  | nullable id, known => (grammar.isNullable id known).2
  | firstSet id, known => (grammar.firstSet id known).2
  | warnings root, known =>
    match grammar.warnings root known with
    | .ok (_, later) => later
    | .error _ => known

/-- What is known after some questions. -/
def knownAfter (grammar : Grammar L) (queries : List Query) (known : Nullability) : Nullability :=
  queries.foldl (fun known query => query.pose grammar known) known

theorem Query.pose_asked (grammar : Grammar L) (query : Query) (known : Nullability) :
    grammar.Asked known (query.pose grammar known) := by
  cases query with
  | nullable id => exact Asked.single grammar id known
  | firstSet id => exact grammar.searchFirst_asked _ id ⟨[], [], known⟩
  | warnings root =>
      rw [pose, Grammar.warnings]
      cases grammar.ruleId? root with
      | none => exact .refl
      | some id => exact grammar.leftRecursionWarnings_asked _ known

theorem knownAfter_asked (grammar : Grammar L) (queries : List Query) (known : Nullability) :
    grammar.Asked known (grammar.knownAfter queries known) := by
  induction queries generalizing known with
  | nil => exact .refl
  | cons query rest inductionHypothesis =>
      exact (query.pose_asked grammar known).trans (inductionHypothesis _)

/-! ## The check -/

theorem Asked.justified {before after : Nullability} (asked : grammar.Asked before after)
    (justified : grammar.Justified before) : grammar.Justified after := by
  have keeps : forall id known, grammar.Justified known ->
      grammar.Justified (grammar.isNullable id known).2 :=
    fun id known holds => (grammar.isNullableWithin_justified grammar.nodeCount id known holds).1
  exact asked.keeps keeps justified

theorem Checked.asked {known next : Nullability} {clause : Clause L PatternProgram NodeId}
    (checked : grammar.Checked known clause next) : grammar.Asked known next := by
  cases checked with
  | repeated no _ => exact Asked.of_answer no
  | leftRecursion no => exact Asked.of_answer no
  | other _ => exact .refl

/-- The operand of a loop that has been checked is denied. -/
theorem Checked.denies {known next : Nullability} (justified : grammar.Justified known)
    {clause : Clause L PatternProgram NodeId} (checked : grammar.Checked known clause next)
    {inner : NodeId} (loops : clause.looped? = some inner) : Denied next inner := by
  have asked := grammar.isNullableWithin_justified grammar.nodeCount inner known justified
  cases checked with
  | repeated no ordered =>
      cases loops
      rw [isNullable] at no
      rw [no] at asked
      exact asked.2 rfl
  | leftRecursion no =>
      cases loops
      rw [isNullable] at no
      rw [no] at asked
      exact asked.2 rfl
  | other noLoop =>
      rw [noLoop] at loops
      cases loops

/-- A check that succeeds is a history of questions, after which the operands of
all loops are denied. -/
theorem validate_denies {clauses : List (Clause L PatternProgram NodeId)}
    {known later : Nullability} (justified : grammar.Justified known)
    (valid : grammar.validate clauses known = .ok later) :
    grammar.Asked known later ∧ forall clause, clause ∈ clauses -> forall inner,
      clause.looped? = some inner -> Denied later inner := by
  induction clauses generalizing known with
  | nil =>
      cases valid
      refine ⟨.refl, ?_⟩
      intro clause member
      cases member
  | cons first rest inductionHypothesis =>
      rcases validate_cons_ok.mp valid with ⟨next, checked, restValid⟩
      rcases inductionHypothesis (checked.asked.justified justified) restValid with
        ⟨restAsked, restDenied⟩
      refine ⟨checked.asked.trans restAsked, ?_⟩
      intro clause member inner loops
      rcases List.mem_cons.mp member with own | inRest
      · rw [own] at loops
        exact (checked.denies justified loops).extends restAsked.extends
      · exact restDenied clause inRest inner loops

end Grammar

/-- What is known of a grammar that has been built is a history of questions,
after which the operands of all loops are denied. -/
theorem GrammarBuilder.build_denies {L : Signature} {builder : GrammarBuilder L}
    {cache after : PatternCache} {built : BuiltGrammar L}
    (accepted : builder.build cache = (.ok built, after)) :
    built.grammar.Asked (Nullability.unknown built.grammar.nodeCount) built.known ∧
      forall (id : NodeId) clause, built.grammar.nodes[id]? = some clause -> forall inner,
        clause.looped? = some inner -> Grammar.Denied built.known inner := by
  rcases Grammar.validate_denies built.grammar.justified_unknown (build_valid accepted) with
    ⟨asked, denied⟩
  refine ⟨asked, ?_⟩
  intro id clause found
  exact denied clause (List.mem_of_getElem? found)

end SeedGrammar
