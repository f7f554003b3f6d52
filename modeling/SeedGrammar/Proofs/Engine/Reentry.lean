import SeedGrammar.Proofs.Engine.LintClean

namespace SeedGrammar

/-!
# Nodes that are entered again where they started

A parse runs into itself if a node is called at a position while an earlier call
of the node at that position is still active.  A left recursion ends this with a
seed.  Without one between the two calls, nothing does.

Between two such calls the position does not change, so each call on the way is of
an operand that can run first.  These are the edges that the search for left
recursion follows, provided that what matched in front of an operand without
advancing has not been answered with no.  So if the node is the root of a rule the
rule is reported, `GrammarBuilder.build_reports_reentry`.

There are two provisos.  A match in front of the operand may be of a kind that
nullability does not foresee.  And a lookahead may be on the way with its
condition, which the search misses although it can run where the lookahead starts: a
rule that looks for itself runs forever and is not reported.  Both happen, and so does
it that the root is a left recursion itself, which answers the second call:
`GrammarBuilder.reentry_unreported`.
-/

variable {L : Signature}

/-! ## Calls that are active -/

/-- A call of a node, with the steps that are left for it. -/
structure Call (L : Signature) where
  steps : Nat
  depth : Nat
  id : NodeId
  context : Context L

/-- Whether a match is misjudged in the course of a call, at the place where the call
starts. -/
def Call.Misjudges (machine : Machine L) (known : Nullability) (call : Call L) : Prop :=
  machine.Misjudges known call.steps call.depth call.id call.context

namespace Machine

/-- Whether one call makes another. -/
inductive Makes (machine : Machine L) : Call L -> Call L -> Prop where
  | call {steps depth id context made} : made ∈ machine.callsOf steps depth id context ->
      Makes machine ⟨steps + 1, depth, id, context⟩ ⟨steps, depth + 1, made.1, made.2⟩

/-- Whether one call is active when another is made.  It is the other one, or has
made one that is active. -/
def Active (machine : Machine L) : Call L -> Call L -> Prop :=
  Relation.ReflTransGen machine.Makes

/-- Whether one call makes another, and is not of a left recursion. -/
def MakesUnguarded (machine : Machine L) (outer inner : Call L) : Prop :=
  machine.Makes outer inner ∧
    forall operand, machine.grammar.nodes[outer.id]? ≠ some (.leftRecursion operand)

/-- Whether one call makes another, and is neither of a left recursion nor of a
lookahead that runs its condition. -/
def MakesPlainly (machine : Machine L) (outer inner : Call L) : Prop :=
  machine.MakesUnguarded outer inner ∧
    forall operand look negative,
      machine.grammar.nodes[outer.id]? = some (.lookahead operand look negative) ->
        inner.id = operand

/-- Whether two calls are of one node at one position. -/
structure Meets (outer inner : Call L) : Prop where
  sameNode : inner.id = outer.id
  samePlace : inner.context.position = outer.context.position

end Machine

/-- Whether a rule with some root is among those that are reported for left
recursion. -/
def Grammar.Reports (warnings : List GrammarWarning) (root : NodeId) : Prop :=
  exists warning, warning ∈ warnings ∧ warning.kind = .unguardedLeftRecursion ∧
    warning.node = root

/-- Whether every rule whose root is entered again where it started is reported, as
long as no left recursion is active in between. -/
def Machine.ReportsReentry (machine : Machine L) (root : NodeId) (state : L.State)
    (warnings : List GrammarWarning) : Prop :=
  forall steps outer middle inner rule, rule ∈ machine.grammar.rules -> rule.root = outer.id ->
    machine.Active ⟨steps, 1, root, Context.start state⟩ outer ->
    machine.Makes outer middle -> Relation.ReflTransGen machine.MakesUnguarded middle inner ->
    Machine.Meets outer inner -> Grammar.Reports warnings rule.root

namespace Machine

variable {machine : Machine L} {known : Nullability} {outer inner : Call L}

/-- A call is of an operand, and at a place where the calling node can lead. -/
theorem Makes.reaches (reads : machine.grammar.ReadsWithin machine.input)
    (fits : machine.grammar.CountsFit machine.input)
    (within : outer.context.Within (machine.bounds True)) (makes : machine.Makes outer inner) :
    machine.grammar.Edge Clause.children outer.id inner.id ∧
      outer.context.Reaches (machine.bounds True) inner.context := by
  cases makes with
  | @call steps depth id context made isCall =>
      have covers : machine.Covers fun _ => True := fun _ _ _ _ => trivial
      change context.Within (machine.bounds True) at within
      rcases calls_asked reads fits covers within isCall with
        ⟨clause, found, isChild, reaches, _⟩
      exact ⟨⟨clause, found, isChild⟩, reaches⟩

/-- What holds of a call that is active holds of those it leads to. -/
theorem Active.reaches (reads : machine.grammar.ReadsWithin machine.input)
    (fits : machine.grammar.CountsFit machine.input)
    (within : outer.context.Within (machine.bounds True)) (active : machine.Active outer inner) :
    machine.grammar.Path Clause.children outer.id inner.id ∧
      outer.context.Reaches (machine.bounds True) inner.context := by
  induction active with
  | refl => exact ⟨.refl, .refl within⟩
  | tail _ makes inductionHypothesis =>
      have next := makes.reaches reads fits inductionHypothesis.2.within
      exact ⟨inductionHypothesis.1.tail next.1, inductionHypothesis.2.trans next.2⟩

/-- A call at the place where the calling node started is of an operand that the
search follows, and misjudges no match if the calling node does not. -/
theorem MakesPlainly.followed (judged : machine.grammar.Judged known)
    (reads : machine.grammar.ReadsWithin machine.input)
    (within : outer.context.Within (machine.bounds True))
    (makes : machine.MakesPlainly outer inner)
    (here : inner.context.position = outer.context.position)
    (judges : ¬outer.Misjudges machine known) :
    machine.grammar.FollowedEdge known outer.id inner.id ∧
      ¬inner.Misjudges machine known := by
  rcases makes with ⟨⟨makes, unguarded⟩, noLook⟩
  cases makes with
  | @call steps depth id context made isCall =>
      let spared (node : NodeId) : Prop := ¬Grammar.Denied known node
      have fits := judged.unextended.countsFit machine.input
      change context.Within (machine.bounds True) at within
      have calls : forall made, made ∈ machine.callsOf steps depth id context ->
          context.Reaches (machine.bounds True) made.2 ->
            (machine.run steps (depth + 1) made.1 made.2).Honours
              ((machine.bounds True).ending
                (made.2.position ≤ context.position -> spared made.1) made.2) := by
        intro made isMade reaches
        apply Reply.Honours.idle_imp (run_judges judged reads steps (depth + 1) made.1 reaches.within)
        rintro (isSpared | misjudges) stays
        · exact isSpared
        · have same := Nat.le_antisymm stays (reaches.forward trivial)
          exact absurd (misjudges.of_call isMade same) judges
      have node := step_obeys reads within (fun _ => never_wraps reads fits within) calls
      refine ⟨?_, fun misjudges => judges (Misjudges.of_call isCall here misjudges)⟩
      rcases node.2 made isCall with ⟨clause, found, _, _, atSamePlace⟩
      refine ⟨clause, found, ?_, ?_⟩
      · rcases atSamePlace ⟨trivial, Nat.le_of_eq here⟩ with isLeft | plants
        · exact isLeft
        · cases clause with
          | leftRecursion operand => exact absurd found (unguarded operand)
          | _ => exact plants.elim
      · rintro operand look negative rfl
        exact noLook operand look negative found

/-- If a node is entered again where it started, the search can follow edges from
the node back to itself. -/
theorem Meets.cycle (judged : machine.grammar.Judged known)
    (reads : machine.grammar.ReadsWithin machine.input)
    (within : outer.context.Within (machine.bounds True))
    (again : Relation.TransGen machine.MakesPlainly outer inner) (meets : Meets outer inner)
    (judges : ¬outer.Misjudges machine known) :
    Relation.TransGen (machine.grammar.FollowedEdge known) outer.id outer.id := by
  have fits := judged.unextended.countsFit machine.input
  -- Positions do not go back, so all calls on the way are made at one place.
  have along : forall {last}, Relation.TransGen machine.MakesPlainly outer last ->
      outer.context.Reaches (machine.bounds True) last.context ∧
        (last.context.position = outer.context.position ->
          Relation.TransGen (machine.grammar.FollowedEdge known) outer.id last.id ∧
            ¬last.Misjudges machine known) := by
    intro last path
    induction path with
    | single makes =>
        refine ⟨(makes.1.1.reaches reads fits within).2, ?_⟩
        intro here
        have next := makes.followed judged reads within here judges
        exact ⟨.single next.1, next.2⟩
    | @tail middle last _ makes inductionHypothesis =>
        rcases inductionHypothesis with ⟨reaches, before⟩
        have next := (makes.1.1.reaches reads fits reaches.within).2
        refine ⟨reaches.trans next, ?_⟩
        intro here
        have stays : middle.context.position = outer.context.position := by
          have ahead := reaches.forward trivial
          have later := next.forward trivial
          omega
        rcases before stays with ⟨path, judgesMiddle⟩
        have edge := makes.followed judged reads reaches.within (here.trans stays.symm)
          judgesMiddle
        exact ⟨path.tail edge.1, edge.2⟩
  have whole := ((along again).2 meets.samePlace).1
  rwa [meets.sameNode] at whole

end Machine

/-! ## Built grammars -/

namespace GrammarBuilder

/-- If the root of a rule is entered again where an earlier call of it has started
that is still active, the rule is reported, unless a match at that place is
misjudged in the course of the earlier call.  From the earlier call on no left
recursion is active, and no lookahead that runs its condition.  This holds of all
parses of a built grammar in which nothing makes matches of its own, whatever has
been asked before. -/
theorem build_reports_reentry {builder : GrammarBuilder L} {cache after : PatternCache}
    {built : BuiltGrammar L} (accepted : builder.build cache = (.ok built, after))
    (unextended : built.grammar.Unextended) {name : String} {type : ValueType L.Kind}
    {entry : EntryPoint L type} (isEntry : built.grammar.entryPoint type name = .ok entry)
    {known later : Nullability} (asked : built.grammar.Asked built.known known)
    {warnings : List GrammarWarning}
    (isReport : built.grammar.warnings name known = .ok (warnings, later))
    (config : ParserConfig) (input : L.Input) (reads : built.grammar.ReadsWithin input)
    (steps : Nat) (state : L.State) {outer inner : Call L} {rule : Rule L}
    (member : rule ∈ built.grammar.rules) (isRoot : rule.root = outer.id)
    (active : ((entry.withConfig config).machine input).Active
      ⟨steps, 1, entry.root, Context.start state⟩ outer)
    (again : Relation.TransGen ((entry.withConfig config).machine input).MakesPlainly outer inner)
    (meets : Machine.Meets outer inner) :
    Grammar.Reports warnings rule.root ∨
      outer.Misjudges ((entry.withConfig config).machine input) later := by
  have ordered := build_ordered accepted
  rcases Grammar.ruleId?_of_entryPoint isEntry with ⟨sameGrammar, isName, named, isNamed, namedRoot⟩
  have isNode : entry.root < built.grammar.nodeCount := by
    rw [<- namedRoot]
    exact ordered.roots named isNamed
  rw [Grammar.warnings, isName] at isReport
  have report := Except.ok.inj isReport
  let machine := (entry.withConfig config).machine input
  have isGrammar : machine.grammar = built.grammar := sameGrammar
  have isInput : machine.input = input := rfl
  have askedLater : built.grammar.Asked built.known later := by
    have reported := built.grammar.leftRecursionWarnings_asked
      (Grammar.reachedRules (built.grammar.reachable entry.root) [] built.grammar.rules) known
    have isLater : (built.grammar.analyze entry.root known).2 = later := by rw [report]
    rw [<- isLater]
    exact asked.trans reported
  have judged := build_judged accepted unextended askedLater
  rw [<- isGrammar] at judged unextended reads
  have outerReaches := Machine.Active.reaches reads (unextended.countsFit input)
    (Context.start_within _ state) active
  by_cases misjudges : outer.Misjudges machine later
  · exact Or.inr misjudges
  · left
    have cycle := meets.cycle judged reads outerReaches.2.within again misjudges
    have path := outerReaches.1
    rw [isGrammar, <- isRoot] at cycle path
    have reports := Grammar.analyze_reports ordered.inRange isNode member path
      (ordered.roots rule member) (by
        rw [report]
        exact cycle)
    rw [report] at reports
    exact reports

/-- Items with commas between them, where the list of the earlier ones comes first. -/
def commaParser : Construction (Parser plainText .text) := do
  let list ← Parser.reference "list" .text
  (← list.thenLeft (← Parser.exact ",")).orElse (← Parser.exact "x")

/-- The rule of lists with commas. -/
def commas : GrammarBuilder plainText := ⟨[⟨"list", .text, (commaParser 0).1⟩]⟩

/-- The nodes of the rule of lists with commas. -/
def commaGrammar : Grammar plainText :=
  ⟨[.reference "list" .text (some 4), .leaf (.exact ","), .sequence [4, 1] (.pick 0),
    .leaf (.exact "x"), .choice [2, 3]], [⟨"list", .text, 4⟩]⟩

theorem commaGrammar_unextended : commaGrammar.Unextended where
  noCustom := by
    intro id name act found
    have member := List.mem_of_getElem? found
    simp [commaGrammar] at member
  noRecovery := by
    intro id inner transform found
    have member := List.mem_of_getElem? found
    simp [commaGrammar] at member

theorem commaGrammar_readsWithin (input : String) : commaGrammar.ReadsWithin input := by
  intro id atom found
  have member := List.mem_of_getElem? found
  simp [commaGrammar] at member
  rcases member with rfl | rfl
  · exact Leaf.exact_readsWithin (L := plainText) input ","
  · exact Leaf.exact_readsWithin (L := plainText) input "x"

/-- There is nothing in the rule that could be misjudged. -/
theorem commaGrammar_judges (input : String) (known : Nullability) (call : Call plainText) :
    ¬call.Misjudges (commaGrammar.machine input) known := by
  rintro ⟨event, _, misjudged⟩
  cases event with
  | entered depth id context => exact misjudged
  | finished depth id first outcome last =>
      rcases misjudged.2.2.2 with ⟨_, _, _, found, _⟩ | ⟨_, _, _, found, _⟩
      · have member : _ ∈ commaGrammar.nodes := List.mem_of_getElem? found
        simp [commaGrammar] at member
      · have member : _ ∈ commaGrammar.nodes := List.mem_of_getElem? found
        simp [commaGrammar] at member

/-- The rule is entered again through the sequence in front. -/
theorem commas_enter_again :
    Relation.TransGen (commaGrammar.machine "x").MakesPlainly ⟨3, 1, 4, Context.start ()⟩
      ⟨1, 3, 4, Context.start ()⟩ := by
  let machine := commaGrammar.machine "x"
  have first : (2, Context.start ()) ∈ machine.callsOf 2 1 4 (Context.start ()) :=
    List.mem_of_getElem? (i := 0) rfl
  have second : (4, Context.start ()) ∈ machine.callsOf 1 2 2 (Context.start ()) :=
    List.mem_of_getElem? (i := 0) rfl
  have toSequence : machine.MakesPlainly ⟨3, 1, 4, Context.start ()⟩ ⟨2, 2, 2, Context.start ()⟩ := by
    refine ⟨⟨.call first, ?_⟩, ?_⟩
    · intro operand found
      cases found
    · intro operand look negative found
      cases found
  have toRoot : machine.MakesPlainly ⟨2, 2, 2, Context.start ()⟩ ⟨1, 3, 4, Context.start ()⟩ := by
    refine ⟨⟨.call second, ?_⟩, ?_⟩
    · intro operand found
      cases found
    · intro operand look negative found
      cases found
  exact .tail (.single toSequence) toRoot

/-- The rule is entered again where it started, and is reported. -/
theorem commas_reported : exists warnings later,
    commaGrammar.warnings "list" (Nullability.unknown 5) = .ok (warnings, later) ∧
      Grammar.Reports warnings 4 := by
  have accepted : commas.build PatternCache.empty =
      (.ok ⟨commaGrammar, Nullability.unknown 5⟩, PatternCache.empty) := rfl
  have isEntry : commaGrammar.entryPoint .text "list" =
      .ok ⟨commaGrammar, 4, ParserConfig.unlimited⟩ := rfl
  have meets : Machine.Meets (L := plainText) ⟨3, 1, 4, Context.start ()⟩
      ⟨1, 3, 4, Context.start ()⟩ := ⟨rfl, rfl⟩
  refine ⟨_, _, rfl, ?_⟩
  rcases build_reports_reentry accepted commaGrammar_unextended isEntry .refl rfl
      ParserConfig.unlimited "x" (commaGrammar_readsWithin "x") 3 () List.mem_cons_self rfl .refl
      commas_enter_again meets with reports | misjudges
  · exact reports
  · exact (commaGrammar_judges "x" _ _ misjudges).elim

/-- A rule that looks whether a letter is ahead, and starts again. -/
def aheadParser : Construction (Parser plainText .text) := do
  let ahead ← (← Parser.empty).followedBy (← Parser.exact "b")
  ahead.thenRight (← Parser.reference "ahead" .text)

/-- The rule that looks ahead. -/
def aheads : GrammarBuilder plainText := ⟨[⟨"ahead", .text, (aheadParser 0).1⟩]⟩

/-- The nodes of the rule that looks ahead. -/
def aheadGrammar : Grammar plainText :=
  ⟨[.leaf .empty, .leaf (.exact "b"), .lookahead 0 1 false, .reference "ahead" .text (some 4),
    .sequence [2, 4] (.pick 1)], [⟨"ahead", .text, 4⟩]⟩

theorem aheadGrammar_unextended : aheadGrammar.Unextended where
  noCustom := by
    intro id name act found
    have member := List.mem_of_getElem? found
    simp [aheadGrammar] at member
  noRecovery := by
    intro id inner transform found
    have member := List.mem_of_getElem? found
    simp [aheadGrammar] at member

/-- The rule looks ahead, which is answered with no since it asks for a letter, but
consumes none.  So what comes behind is not followed. -/
theorem aheads_unreported : exists known warnings later,
    aheads.build PatternCache.empty = (.ok ⟨aheadGrammar, known⟩, PatternCache.empty) ∧
      aheadGrammar.warnings "ahead" known = .ok (warnings, later) ∧
      ¬(aheadGrammar.machine "b").ReportsReentry 4 () warnings := by
  refine ⟨_, _, _, rfl, rfl, ?_⟩
  intro reports
  let outer : Call plainText := ⟨3, 1, 4, Context.start ()⟩
  let inner : Call plainText := ⟨2, 2, 4, Context.start ()⟩
  have second : (4, Context.start ()) ∈
      (aheadGrammar.machine "b").callsOf 2 1 4 (Context.start ()) :=
    List.mem_of_getElem? (i := 1) rfl
  rcases reports 3 outer inner inner ⟨"ahead", .text, 4⟩ List.mem_cons_self rfl .refl
    (.call second) .refl ⟨rfl, rfl⟩ with ⟨warning, member, _⟩
  cases member

/-- The rule is a left recursion, which is entered again by the sum in front. -/
theorem sums_unreported : exists known warnings later,
    sums.build PatternCache.empty = (.ok ⟨sumGrammar, known⟩, PatternCache.empty) ∧
      sumGrammar.warnings "sum" known = .ok (warnings, later) ∧
      ¬(sumGrammar.machine "1").ReportsReentry 7 () warnings := by
  refine ⟨_, _, _, rfl, rfl, ?_⟩
  intro reports
  let machine := sumGrammar.machine "1"
  let planted : Context plainText := (Context.start ()).withSeed (7, 0)
    ⟨0, (), .error ((ParseError.bare 0).withNode 7)⟩
  let outer : Call plainText := ⟨5, 1, 7, Context.start ()⟩
  let inner : Call plainText := ⟨1, 5, 7, planted⟩
  have grows : machine.dialogue 4 1 7 (Context.start ()) =
      .growth 7 6 (Context.start ()).snapshot 4 planted := rfl
  have toChoice : (6, planted) ∈ machine.callsOf 4 1 7 (Context.start ()) := by
    rw [Machine.callsOf, grows, Dialogue.growth]
    exact Dialogue.mem_calls_ask.mpr (Or.inl rfl)
  have toMap : (5, planted) ∈ machine.callsOf 3 2 6 planted :=
    List.mem_of_getElem? (i := 0) rfl
  have toSequence : (4, planted) ∈ machine.callsOf 2 3 5 planted :=
    List.mem_of_getElem? (i := 0) rfl
  have toRoot : (7, planted) ∈ machine.callsOf 1 4 4 planted :=
    List.mem_of_getElem? (i := 0) rfl
  have unguarded : Relation.ReflTransGen machine.MakesUnguarded ⟨4, 2, 6, planted⟩ inner :=
    .head ⟨.call toMap, fun _ found => by cases found⟩
      (.head ⟨.call toSequence, fun _ found => by cases found⟩
        (.single ⟨.call toRoot, fun _ found => by cases found⟩))
  rcases reports 5 outer _ inner ⟨"sum", .text, 7⟩ List.mem_cons_self rfl .refl
    (.call toChoice) unguarded ⟨rfl, rfl⟩ with ⟨warning, member, _⟩
  cases member

/-- A rule that looks whether the rule itself is ahead. -/
def mirrorParser : Construction (Parser plainText .unit) := do
  (← Parser.empty).followedBy (← Parser.reference "mirror" .unit)

/-- The rule that looks for itself. -/
def mirrors : GrammarBuilder plainText := ⟨[⟨"mirror", .unit, (mirrorParser 0).1⟩]⟩

/-- The nodes of the rule that looks for itself. -/
def mirrorGrammar : Grammar plainText :=
  ⟨[.leaf .empty, .reference "mirror" .unit (some 2), .lookahead 0 2 false],
    [⟨"mirror", .unit, 2⟩]⟩

/-- The rule is entered again as its own condition. -/
theorem mirrors_unreported : exists known warnings later,
    mirrors.build PatternCache.empty = (.ok ⟨mirrorGrammar, known⟩, PatternCache.empty) ∧
      mirrorGrammar.warnings "mirror" known = .ok (warnings, later) ∧
      ¬(mirrorGrammar.machine "").ReportsReentry 2 () warnings := by
  refine ⟨_, _, _, rfl, rfl, ?_⟩
  intro reports
  let outer : Call plainText := ⟨2, 1, 2, Context.start ()⟩
  let inner : Call plainText := ⟨1, 2, 2, Context.start ()⟩
  have looks : (2, Context.start ()) ∈
      (mirrorGrammar.machine "").callsOf 1 1 2 (Context.start ()) :=
    List.mem_of_getElem? (i := 1) rfl
  rcases reports 2 outer inner inner ⟨"mirror", .unit, 2⟩ List.mem_cons_self rfl .refl
    (.call looks) .refl ⟨rfl, rfl⟩ with ⟨warning, member, _⟩
  cases member

/-- Three rules that are entered again where they started are not reported.  Nothing in
the first makes matches of its own. -/
theorem reentry_unreported :
    (aheadGrammar.Unextended ∧ exists known warnings later,
      aheads.build PatternCache.empty = (.ok ⟨aheadGrammar, known⟩, PatternCache.empty) ∧
        aheadGrammar.warnings "ahead" known = .ok (warnings, later) ∧
        ¬(aheadGrammar.machine "b").ReportsReentry 4 () warnings) ∧
    (exists known warnings later,
      sums.build PatternCache.empty = (.ok ⟨sumGrammar, known⟩, PatternCache.empty) ∧
        sumGrammar.warnings "sum" known = .ok (warnings, later) ∧
        ¬(sumGrammar.machine "1").ReportsReentry 7 () warnings) ∧
    exists known warnings later,
      mirrors.build PatternCache.empty = (.ok ⟨mirrorGrammar, known⟩, PatternCache.empty) ∧
        mirrorGrammar.warnings "mirror" known = .ok (warnings, later) ∧
        ¬(mirrorGrammar.machine "").ReportsReentry 2 () warnings :=
  ⟨⟨aheadGrammar_unextended, aheads_unreported⟩, sums_unreported, mirrors_unreported⟩

end GrammarBuilder
end SeedGrammar
