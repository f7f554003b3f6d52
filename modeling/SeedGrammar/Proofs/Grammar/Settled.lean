import SeedGrammar.Proofs.Grammar.FirmAnswers
import SeedGrammar.Proofs.Grammar.FoldingRules

namespace SeedGrammar

/-!
# Answers that do not depend on what was asked before

Between questions no node is being computed, so a node that is tenable is answered with yes
and a node that is denied in any case is answered with no.  What such settled nodes decide
does not depend on which questions have been asked before: which leaves can start a match, and
whether a loop is accepted.  Two copies of a grammar agree on it, `Grammar.copies_agree`.

About other nodes nothing is said.  Some of them are answered in two ways, against the rules
that say when a node is nullable: `GrammarBuilder.ring_remembers`.
-/

variable {L : Signature}

namespace Grammar

/-- Whether the answer about a node is yes whatever is assumed, or no whatever is
assumed. -/
def Settled (grammar : Grammar L) (id : NodeId) : Prop :=
  grammar.Tenable id ∨ grammar.FirmlyDenied id

variable {grammar : Grammar L}

/-- A node that can be decided without assumptions is settled. -/
theorem settled_of_decided {steps : Nat} {id : NodeId} {answer : Bool}
    (decided : grammar.decide? steps id = some answer) : grammar.Settled id := by
  cases answer with
  | true => exact Or.inl (tenable_of_decided decided)
  | false => exact Or.inr (firmlyDenied_of_decided decided)

/-! ## Histories -/

/-- Whether no question is going on, and what is known denies nothing tenable and affirms
nothing that is denied in any case. -/
structure Rests (grammar : Grammar L) (known : Nullability) : Prop where
  length : known.cells.length = grammar.nodeCount
  spares : grammar.Spares grammar.Tenable known
  refuses : forall id, grammar.FirmlyDenied id -> known.get? id ≠ some (.known true)
  idle : forall id, known.get? id ≠ some .computing

theorem rests_unknown (grammar : Grammar L) :
    grammar.Rests (Nullability.unknown grammar.nodeCount) where
  length := List.length_replicate
  spares := grammar.spares_unknown grammar.Tenable
  refuses id _ found := by
    cases Nullability.get?_unknown found
  idle id computing := by
    cases Nullability.get?_unknown computing

theorem Rests.enough {known : Nullability} (rests : grammar.Rests known) :
    known.unknownCount ≤ grammar.nodeCount :=
  rests.length ▸ List.count_le_length

theorem Rests.heeds {known : Nullability} (rests : grammar.Rests known) {denied : NodeId -> Prop}
    {around : NodeId -> NodeId -> Prop} (firm : grammar.Firm denied around) :
    grammar.Heeds denied grammar.nodeCount known where
  length := rests.length
  enough := rests.enough
  spares := rests.spares
  refuses id isDenied := rests.refuses id ⟨denied, around, firm, isDenied⟩

/-- Between questions there is nothing that could count as nullable for the time being. -/
theorem Rests.asked {known : Nullability} (rests : grammar.Rests known) (id : NodeId)
    {denied : NodeId -> Prop} {around : NodeId -> NodeId -> Prop}
    (firm : grammar.Firm denied around) :
    grammar.Heeds denied grammar.nodeCount (grammar.isNullable id known).2 ∧
      (denied id -> (grammar.isNullable id known).1 = false) := by
  have ends := isNullableWithin_heeds firm grammar.nodeCount id (rests.heeds firm)
    fun outer computing => absurd computing (rests.idle outer)
  exact ⟨ends.1, fun isDenied => ends.2 isDenied (rests.idle id)⟩

theorem Rests.ask {known : Nullability} (rests : grammar.Rests known) (id : NodeId) :
    grammar.Rests (grammar.isNullable id known).2 where
  length := (grammar.isNullableWithin_extends _ id known).length.trans rests.length
  spares := (grammar.isNullableWithin_spares grammar.tenable_supports _ id rests.spares).1
  refuses other isDenied := by
    rcases isDenied with ⟨denied, around, firm, isDenied⟩
    exact (rests.asked id firm).1.refuses other isDenied
  idle other computing := rests.idle other
    (((grammar.isNullableWithin_extends _ id known).computing other).mp computing)

theorem Asked.rests {before after : Nullability} (asked : grammar.Asked before after)
    (rests : grammar.Rests before) : grammar.Rests after :=
  asked.keeps (fun id _ holds => holds.ask id) rests

theorem Rests.yes {known : Nullability} (rests : grammar.Rests known) {id : NodeId}
    (tenable : grammar.Tenable id) : (grammar.isNullable id known).1 = true := by
  have spared := grammar.isNullableWithin_spares grammar.tenable_supports grammar.nodeCount id
    rests.spares
  exact Bool.eq_true_of_not_eq_false fun no => spared.2 no tenable

theorem Rests.no {known : Nullability} (rests : grammar.Rests known) {id : NodeId}
    (isDenied : grammar.FirmlyDenied id) : (grammar.isNullable id known).1 = false := by
  rcases isDenied with ⟨denied, around, firm, isDenied⟩
  exact (rests.asked id firm).2 isDenied

/-- A settled node gets one answer, whatever has been asked before. -/
theorem Settled.isNullable_eq {id : NodeId} (settled : grammar.Settled id)
    {known other : Nullability} (rests : grammar.Rests known) (others : grammar.Rests other) :
    (grammar.isNullable id known).1 = (grammar.isNullable id other).1 := by
  rcases settled with tenable | isDenied
  · exact (rests.yes tenable).trans (others.yes tenable).symm
  · exact (rests.no isDenied).trans (others.no isDenied).symm

/-- A settled node that is answered with no is answered so again. -/
theorem Settled.no_again {id : NodeId} (settled : grammar.Settled id)
    {known other next : Nullability} (rests : grammar.Rests known) (others : grammar.Rests other)
    (no : grammar.isNullable id known = (false, next)) :
    exists next', grammar.isNullable id other = (false, next') := by
  have same := settled.isNullable_eq rests others
  rw [no] at same
  exact ⟨(grammar.isNullable id other).2, Prod.ext same.symm rfl⟩

/-- A question leaves its answer behind, unless it is about a number of no
node. -/
theorem Rests.leaves {known : Nullability} (rests : grammar.Rests known) (id : NodeId) :
    (known.get? id = none ∧ (grammar.isNullable id known).1 = false) ∨
      (grammar.isNullable id known).2.get? id = some (.known (grammar.isNullable id known).1) := by
  have notSpent : known.get? id = some .unknown ->
      ¬(grammar.nodeCount = 0 ∨ grammar.nodes[id]? = none) :=
    (rests.heeds grammar.decided_firm).not_spent
  have question := grammar.isNullableWithin_question grammar.nodeCount id known
  rw [isNullable]
  generalize grammar.nodeCount = fuel at notSpent question ⊢
  generalize grammar.isNullableWithin fuel id known = result at question ⊢
  cases question with
  | unlisted status => exact Or.inl ⟨status, rfl⟩
  | known status => exact Or.inr status
  | computing status => exact absurd status (rests.idle id)
  | spent status reason => exact absurd reason (notSpent status)
  | @computed fewer clause answer after status found asked =>
      have isComputing := ((grammar.inquiry_extends fewer clause.inquiry
        (known.set id .computing)).computing id).mpr (Nullability.get?_set_self status)
      rw [asked] at isComputing
      exact Or.inr (Nullability.get?_set_self isComputing)

/-- A question that has been put is answered in the same way at any later time, and
nothing else is asked then. -/
theorem Rests.repeats {known next later : Nullability} {id : NodeId} {answer : Bool}
    (rests : grammar.Rests known) (given : grammar.isNullable id known = (answer, next))
    (asked : grammar.Asked next later) : grammar.isNullable id later = (answer, later) := by
  have longer := (Asked.of_answer given).extends.trans asked.extends
  have leaves := rests.leaves id
  rw [given] at leaves
  rcases leaves with ⟨unlisted, rfl⟩ | kept
  · have status : later.get? id = none := by
      apply List.getElem?_eq_none
      rw [longer.length]
      exact List.getElem?_eq_none_iff.mp unlisted
    rw [isNullable]
    unfold isNullableWithin
    rw [status]
  · exact grammar.isNullableWithin_of_known grammar.nodeCount (asked.extends.kept id _ kept)

/-- An answer that has been given is given again, whatever is asked in between. -/
theorem Rests.again {known later : Nullability} (rests : grammar.Rests known) {id : NodeId}
    (asked : grammar.Asked (grammar.isNullable id known).2 later) :
    (grammar.isNullable id later).1 = (grammar.isNullable id known).1 := by
  have repeated : grammar.isNullable id later = ((grammar.isNullable id known).1, later) :=
    rests.repeats rfl asked
  rw [repeated]

/-! ## First sets -/

/-- Whether all items that decide how far a search for leaves goes are settled.
What the last item of a sequence is answered with does not matter. -/
def SettledFirst (grammar : Grammar L) (id : NodeId) : Prop :=
  forall node items gather, grammar.Path Clause.leading id node ->
    grammar.nodes[node]? = some (.sequence items gather) ->
      forall item, item ∈ items.dropLast -> grammar.Settled item

/-- Two searches that have come to the same nodes and leaves. -/
structure SearchAlike (grammar : Grammar L) (first second : FirstSearch) : Prop where
  visited : first.visited = second.visited
  leaves : first.leaves = second.leaves
  first : grammar.Rests first.known
  second : grammar.Rests second.known

theorem searchItems_alike {search : NodeId -> FirstSearch -> FirstSearch} {items : List NodeId}
    (one : forall item, item ∈ items -> forall first second, grammar.SearchAlike first second ->
      grammar.SearchAlike (search item first) (search item second))
    (settled : forall item, item ∈ items.dropLast -> grammar.Settled item)
    {first second : FirstSearch} (alike : grammar.SearchAlike first second) :
    grammar.SearchAlike (grammar.searchItems search items first)
      (grammar.searchItems search items second) := by
  induction items generalizing first second with
  | nil => exact alike
  | cons id rest inductionHypothesis =>
      have met := one id List.mem_cons_self first second alike
      have asked := met.first.ask id
      have asked' := met.second.ask id
      rw [searchItems, searchItems]
      cases rest with
      | nil =>
          cases answer : grammar.isNullable id (search id first).known with
          | mk said next =>
              cases answer' : grammar.isNullable id (search id second).known with
              | mk said' next' =>
                  rw [answer] at asked
                  rw [answer'] at asked'
                  cases said <;> cases said' <;>
                    exact ⟨met.visited, met.leaves, asked, asked'⟩
      | cons following others =>
          have same := (settled id List.mem_cons_self).isNullable_eq met.first met.second
          cases answer : grammar.isNullable id (search id first).known with
          | mk said next =>
              cases answer' : grammar.isNullable id (search id second).known with
              | mk said' next' =>
                  rw [answer, answer'] at same
                  rw [answer] at asked
                  rw [answer'] at asked'
                  cases same
                  have moved : grammar.SearchAlike { search id first with known := next }
                      { search id second with known := next' } :=
                    ⟨met.visited, met.leaves, asked, asked'⟩
                  cases said with
                  | true =>
                      exact inductionHypothesis
                        (fun item member => one item (List.mem_cons_of_mem id member))
                        (fun item member => settled item (List.mem_cons_of_mem id member)) moved
                  | false => exact moved

theorem SettledFirst.operand {id operand : NodeId} (settled : grammar.SettledFirst id)
    {clause : Clause L PatternProgram NodeId} (found : grammar.nodes[id]? = some clause)
    (isOperand : operand ∈ clause.leading) : grammar.SettledFirst operand := by
  intro node items gather path
  exact settled node items gather (.head ⟨clause, found, isOperand⟩ path)

theorem searchClause_alike {search : NodeId -> FirstSearch -> FirstSearch} {id : NodeId}
    {clause : Clause L PatternProgram NodeId}
    (one : forall operand, operand ∈ clause.leading -> forall first second,
      grammar.SearchAlike first second ->
        grammar.SearchAlike (search operand first) (search operand second))
    (settled : forall items gather, clause = .sequence items gather ->
      forall item, item ∈ items.dropLast -> grammar.Settled item)
    {first second : FirstSearch} (alike : grammar.SearchAlike first second) :
    grammar.SearchAlike (grammar.searchClause search id first clause)
      (grammar.searchClause search id second clause) := by
  have several : forall operands : List NodeId, operands ⊆ clause.leading ->
      forall first second, grammar.SearchAlike first second ->
        grammar.SearchAlike (operands.foldl (fun state operand => search operand state) first)
          (operands.foldl (fun state operand => search operand state) second) := by
    intro operands
    induction operands with
    | nil => exact fun _ _ _ alike => alike
    | cons operand rest inductionHypothesis =>
        intro among first second alike
        rcases List.cons_subset.mp among with ⟨isOperand, others⟩
        exact inductionHypothesis others _ _ (one operand isOperand first second alike)
  cases clause with
  | leaf atom => exact ⟨alike.visited, congrArg (id :: ·) alike.leaves, alike.first, alike.second⟩
  | sequence items gather => exact searchItems_alike one (settled items gather rfl) alike
  | _ => exact several _ (List.Subset.refl _) first second alike

theorem searchFirst_alike (fuel : Nat) {id : NodeId} (settled : grammar.SettledFirst id)
    {first second : FirstSearch} (alike : grammar.SearchAlike first second) :
    grammar.SearchAlike (grammar.searchFirst fuel id first)
      (grammar.searchFirst fuel id second) := by
  induction fuel generalizing id first second with
  | zero => exact alike
  | succ fuel inductionHypothesis =>
      rw [searchFirst_succ, searchFirst_succ, <- alike.visited]
      by_cases isVisited : id ∈ first.visited
      · rw [if_pos isVisited, if_pos isVisited]
        exact alike
      · rw [if_neg isVisited, if_neg isVisited]
        have entered : grammar.SearchAlike { first with visited := id :: first.visited }
            { second with visited := id :: first.visited } :=
          ⟨rfl, alike.leaves, alike.first, alike.second⟩
        cases found : grammar.nodes[id]? with
        | none => exact entered
        | some clause =>
            apply searchClause_alike _ _ entered
            · intro operand isOperand first second
              exact inductionHypothesis (settled.operand found isOperand)
            · rintro items gather rfl
              exact settled id items gather .refl found

/-- The leaves that can start a match of a node do not depend on what has been
asked before, if the items that decide about them are settled. -/
theorem SettledFirst.firstSet_eq {id : NodeId} (settled : grammar.SettledFirst id)
    {known other : Nullability} (rests : grammar.Rests known) (others : grammar.Rests other) :
    (grammar.firstSet id known).1 = (grammar.firstSet id other).1 := by
  have alike := searchFirst_alike (grammar.nodeCount + 1) settled
    (⟨rfl, rfl, rests, others⟩ : grammar.SearchAlike ⟨[], [], known⟩ ⟨[], [], other⟩)
  exact congrArg List.reverse alike.leaves

/-! ## The check -/

/-- A check of clauses whose loops have settled operands does not depend on what
has been asked before. -/
theorem validate_isOk_eq {clauses : List (Clause L PatternProgram NodeId)}
    (settled : forall clause, clause ∈ clauses -> forall inner, clause.looped? = some inner ->
      grammar.Settled inner)
    {known other : Nullability} (rests : grammar.Rests known) (others : grammar.Rests other)
    {later : Nullability} (valid : grammar.validate clauses known = .ok later) :
    exists last, grammar.validate clauses other = .ok last := by
  induction clauses generalizing known other with
  | nil => exact ⟨other, rfl⟩
  | cons first rest inductionHypothesis =>
      rcases validate_cons_ok.mp valid with ⟨next, checked, restValid⟩
      have firstSettled := settled first List.mem_cons_self
      -- The other copy gives the same answer about the first clause.
      have again : exists next', grammar.Checked other first next' := by
        cases checked with
        | @repeated inner element min max _ no ordered =>
            rcases (firstSettled inner rfl).no_again rests others no with ⟨next', no'⟩
            exact ⟨next', .repeated no' ordered⟩
        | @leftRecursion inner _ no =>
            rcases (firstSettled inner rfl).no_again rests others no with ⟨next', no'⟩
            exact ⟨next', .leftRecursion no'⟩
        | other noLoop => exact ⟨other, .other noLoop⟩
      rcases again with ⟨next', checked'⟩
      rcases inductionHypothesis (fun clause member => settled clause (List.mem_cons_of_mem first member))
          (checked.asked.rests rests) (checked'.asked.rests others) restValid with ⟨last, isLast⟩
      exact ⟨last, validate_cons_ok.mpr ⟨next', checked', isLast⟩⟩

/-! ## Copies of a grammar -/

/-- What may be known about a new copy of a grammar: nothing, or what building it
has found out. -/
def Fresh (grammar : Grammar L) (known : Nullability) : Prop :=
  known = Nullability.unknown grammar.nodeCount ∨
    exists (builder : GrammarBuilder L) (cache after : PatternCache),
      builder.build cache = (.ok ⟨grammar, known⟩, after)

theorem Fresh.rests {known : Nullability} (fresh : grammar.Fresh known) (queries : List Query) :
    grammar.Rests (grammar.knownAfter queries known) := by
  apply (grammar.knownAfter_asked queries known).rests
  rcases fresh with rfl | ⟨builder, cache, after, accepted⟩
  · exact grammar.rests_unknown
  · exact (GrammarBuilder.build_denies accepted).1.rests grammar.rests_unknown

/-- Whether no answer about a node depends on what has been asked before. -/
def IgnoresHistory (grammar : Grammar L) (known : Nullability) : Prop :=
  forall queries others id, (grammar.isNullable id (grammar.knownAfter queries known)).1 =
    (grammar.isNullable id (grammar.knownAfter others known)).1

/-- Whether two copies of a grammar, with what is known about each, give the same
answers about settled nodes, find the same leaves where settled nodes decide
about them, and both or neither pass a check of loops with settled operands. -/
structure AgreeOnSettled (grammar : Grammar L) (known other : Nullability) : Prop where
  nullable : forall id, grammar.Settled id ->
    (grammar.isNullable id known).1 = (grammar.isNullable id other).1
  firstSet : forall id, grammar.SettledFirst id ->
    (grammar.firstSet id known).1 = (grammar.firstSet id other).1
  check : forall clauses, (forall clause, clause ∈ clauses -> forall inner,
      clause.looped? = some inner -> grammar.Settled inner) ->
    ((exists later, grammar.validate clauses known = .ok later) ↔
      exists later, grammar.validate clauses other = .ok later)

theorem agreeOnSettled_of_rests {known other : Nullability} (rests : grammar.Rests known)
    (others : grammar.Rests other) : grammar.AgreeOnSettled known other where
  nullable _ settled := settled.isNullable_eq rests others
  firstSet _ settled := settled.firstSet_eq rests others
  check clauses settled := by
    constructor
    · rintro ⟨later, valid⟩
      exact validate_isOk_eq settled rests others valid
    · rintro ⟨later, valid⟩
      exact validate_isOk_eq settled others rests valid

/-- Two new copies of a grammar that have been asked different questions agree on
everything settled.  Each of them gives an answer again that it has given once. -/
theorem copies_agree (grammar : Grammar L) {known other : Nullability}
    (fresh : grammar.Fresh known) (others : grammar.Fresh other) (queries questions : List Query) :
    grammar.AgreeOnSettled (grammar.knownAfter queries known)
        (grammar.knownAfter questions other) ∧
      forall id more,
        (grammar.isNullable id
            (grammar.knownAfter more (grammar.isNullable id (grammar.knownAfter queries known)).2)).1 =
          (grammar.isNullable id (grammar.knownAfter queries known)).1 := by
  have rests := fresh.rests queries
  refine ⟨agreeOnSettled_of_rests rests (others.rests questions), ?_⟩
  intro id more
  exact rests.again (grammar.knownAfter_asked more _)

end Grammar

namespace GrammarBuilder

/-- The root of the rule of sums and its leaves are settled, although the rule
starts with itself: what matters is that left recursion has to consume. -/
theorem sums_copies_agree :
    sumGrammar.Settled 7 ∧ sumGrammar.SettledFirst 7 ∧ exists known,
      sums.build PatternCache.empty = (.ok ⟨sumGrammar, known⟩, PatternCache.empty) ∧
      sumGrammar.AgreeOnSettled (sumGrammar.knownAfter [.nullable 4, .warnings "sum"] known)
        (sumGrammar.knownAfter [.firstSet 3] (Nullability.unknown sumGrammar.nodeCount)) := by
  refine ⟨Grammar.settled_of_decided (rfl : sumGrammar.decide? 1 7 = some false), ?_, ?_⟩
  · intro node items gather _ found item member
    match node with
    | 3 =>
        cases found
        cases List.mem_singleton.mp member
        exact Grammar.settled_of_decided (rfl : sumGrammar.decide? 1 _ = some false)
    | 4 =>
        cases found
        cases List.mem_singleton.mp member
        exact Grammar.settled_of_decided (rfl : sumGrammar.decide? 1 _ = some false)
    | 0 => cases found
    | 1 => cases found
    | 2 => cases found
    | 5 => cases found
    | 6 => cases found
    | 7 => cases found
    | _ + 8 => cases found
  · rcases sums_accepted with ⟨known, accepted⟩
    exact ⟨known, accepted,
      (sumGrammar.copies_agree (Or.inr ⟨sums, _, _, accepted⟩) (Or.inl rfl) _ _).1⟩

/-! ## A ring -/

/-- Two rules that ask about each other, one of them with a letter at its end that denies it,
and repetitions of two rules. -/
def ringParsers (first second : String) : Construction (List (Definition plainText)) := do
  let mark ← Parser.exact "x"
  let other ← Parser.reference "b" .text
  let guarded ← mark.followedBy other
  let last ← Parser.exact "y"
  let closed ← guarded.thenLeft last
  let back ← Parser.reference "a" .text
  let letter ← Parser.exact "y"
  let either ← back.orElse letter
  let firstMany ← (← Parser.reference first .text).many
  let secondMany ← (← Parser.reference second .text).many
  return [⟨"a", .text, closed⟩, ⟨"b", .text, either⟩, ⟨"c", .list .text, firstMany⟩,
    ⟨"d", .list .text, secondMany⟩]

/-- The two rules alone. -/
def ring : GrammarBuilder plainText :=
  ⟨((ringParsers "a" "b" 0).1).take 2⟩

/-- The two rules with repetitions of both, in some order. -/
def ringLoops (first second : String) : GrammarBuilder plainText :=
  ⟨(ringParsers first second 0).1⟩

/-- The nodes of the two rules. -/
def ringGrammar : Grammar plainText :=
  ⟨[.leaf (.exact "x"), .reference "b" .text (some 7), .lookahead 0 7 false, .leaf (.exact "y"),
      .sequence [2, 3] (.pick 0), .reference "a" .text (some 4), .leaf (.exact "y"),
      .choice [4, 6]],
    [⟨"a", .text, 4⟩, ⟨"b", .text, 7⟩]⟩

/-- The first rule is denied in any case, because of the letter at its end. -/
theorem ring_first_settled : ringGrammar.Settled 4 := by
  have found : ringGrammar.nodes[4]? = some (.sequence [2, 3] (.pick 0)) := rfl
  have letter : ringGrammar.decide? 1 3 = some false := rfl
  apply Or.inr
  apply Grammar.firmlyDenied_of_operands found
  intro holds
  have isItem : 3 ∈ [2, 3] := List.mem_cons_of_mem 2 List.mem_cons_self
  exact holds 3 isItem ⟨1, letter⟩

/-- The second rule is not nullable, unless the first is asked about before: then the answer
rests on the assumption that the first is, which fails for the letter at its end, and is yes
although both alternatives are answered with no.  So the repetitions are accepted in one order
and not in the other. -/
theorem ring_remembers :
    ring.build PatternCache.empty =
        (.ok ⟨ringGrammar, Nullability.unknown 8⟩, PatternCache.empty) ∧
      ringGrammar.Settled 4 ∧ ringGrammar.nodes[7]? = some (.choice [4, 6]) ∧
      ([7, 4, 6].map fun id => (ringGrammar.isNullable id
        (ringGrammar.knownAfter [.nullable 4] (Nullability.unknown 8))).1) = [true, false, false] ∧
      (ringGrammar.isNullable 7 (ringGrammar.knownAfter [] (Nullability.unknown 8))).1 = false ∧
      ¬ringGrammar.IgnoresHistory (Nullability.unknown 8) ∧
      ((ringLoops "b" "a").build PatternCache.empty).1.map (fun _ => ()) = .ok () ∧
      ((ringLoops "a" "b").build PatternCache.empty).1.map (fun _ => ()) =
        .error (.nullableRepeat "Alt(<a>, Exact(\"y\"))") := by
  refine ⟨rfl, ring_first_settled, rfl, by decide, by decide, ?_, by decide +kernel,
    by decide +kernel⟩
  intro ignores
  exact absurd (ignores [] [.nullable 4] 7) (by decide)

end GrammarBuilder
end SeedGrammar
