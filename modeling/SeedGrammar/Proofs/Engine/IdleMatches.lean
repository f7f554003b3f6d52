import SeedGrammar.Proofs.Engine.Termination
import SeedGrammar.Proofs.Grammar.Numbering
import SeedGrammar.Proofs.Grammar.QueryHistory

namespace SeedGrammar

/-!
# Matches that do not advance

Whether a node is nullable is found out before there is any input.  The rules
follow what clauses do, except for two kinds of nodes.  A regular expression is
tried on the empty text alone, so one that matches nothing only in front of some
text, as at the start of a word, is missed.  And a condition on what follows is
answered for what follows, not for what it is a condition on.

Any other match that does not advance is of a node that has been answered with
yes.  An answer of no is justified by further ones, whatever has been asked
before, and who follows these through such a match comes to a match of one of
the two kinds, at the same place.  In particular this is so for the operand of a
loop, which the check of the grammar has asked about.

What is asked of a grammar is that nothing in it makes matches of its own: it
has no leaves of its author, and no function that turns a failure into a value.
-/

variable {L : Signature}

namespace Text

theorem eq_nil_of_byteLength {chars : List Char} (none : byteLength chars = 0) : chars = [] := by
  cases chars with
  | nil => rfl
  | cons c rest =>
      have positive := c.utf8Size_pos
      rw [byteLength_cons] at none
      omega

end Text

/-! ## Leaves -/

namespace Leaf

/-- A regular expression that matches without consuming matches nothing at the
start of some text, or the empty text. -/
theorem pattern_idles {input : L.Input} {source : String} {program : PatternProgram}
    {text : L.Input -> String} {self : NodeId} {context after : Context L} {value : Value L}
    (isRun : (pattern source program text).run input self context = (.ok value, after))
    (stays : after.position = context.position) :
    exists rest found, program.find? rest = some found ∧ (found.stop = 0 ∨ rest = []) := by
  simp only [run] at isRun
  cases dropped : Text.dropBytes context.position (text input).toList with
  | none =>
      rw [dropped] at isRun
      cases isRun
  | some rest =>
      simp only [dropped] at isRun
      cases matched : program.find? rest with
      | none =>
          rw [matched] at isRun
          cases isRun
      | some found =>
          simp only [matched] at isRun
          cases isRun
          have none : Text.byteLength (rest.take found.stop) = 0 := Nat.add_eq_left.mp stays
          exact ⟨rest, found, matched,
            List.take_eq_nil_iff.mp (Text.eq_nil_of_byteLength none)⟩

/-- A character has a width. -/
theorem charset_advances {input : L.Input} {set : CharSet} {label : String}
    {read : L.Input -> Nat -> Option (Char × Nat)} {self : NodeId} {context after : Context L}
    {value : Value L}
    (reads : (charset set label read : Leaf L PatternProgram).ReadsWithin input)
    (isRun : (charset set label read).run input self context = (.ok value, after)) :
    context.position < after.position := by
  simp only [run] at isRun
  cases isRead : read input context.position with
  | none =>
      rw [isRead] at isRun
      cases isRun
  | some got =>
      rcases got with ⟨c, width⟩
      simp only [isRead] at isRun
      by_cases member : set.contains c = true
      · rw [if_pos member] at isRun
        cases isRun
        exact Nat.lt_add_of_pos_right (reads _ _ _ isRead).1
      · rw [if_neg member] at isRun
        cases isRun

/-- Whether a leaf can match without consuming although it is not nullable: it
is a regular expression that does not match the empty text, or the author's
own. -/
inductive Unforeseen : Leaf L PatternProgram -> Prop where
  | pattern {source program text} : program.isMatch [] = false ->
      Unforeseen (.pattern source program text)
  | custom {name act} : Unforeseen (.custom name act)

/-- Any other leaf that matches without consuming is nullable. -/
theorem isNullable_of_stays {input : L.Input} {atom : Leaf L PatternProgram}
    (reads : atom.ReadsWithin input)
    (filled : forall literal, atom = .exact literal -> Stream.length literal ≠ 0)
    (foreseen : ¬atom.Unforeseen) {self : NodeId} {context after : Context L} {value : Value L}
    (isRun : atom.run input self context = (.ok value, after))
    (stays : after.position = context.position) : atom.isNullable = true := by
  cases atom with
  | exact literal =>
      rw [run] at isRun
      by_cases stands : Stream.matchesAt input context.position literal = true
      · rw [if_pos stands] at isRun
        cases isRun
        have none : Stream.length literal = 0 := Nat.add_eq_left.mp stays
        exact absurd none (filled literal rfl)
      · rw [if_neg stands] at isRun
        cases isRun
  | charset set label read => exact absurd stays (Nat.ne_of_gt (charset_advances reads isRun))
  | pattern source program text =>
      by_contra no
      exact foreseen (.pattern (Bool.eq_false_iff.mpr no))
  | empty => rfl
  | eof => rfl
  | fail message payload => rfl
  | custom name act => exact absurd .custom foreseen

end Leaf

/-! ## Clauses -/

/-- Whether a clause can match without advancing only in ways that the rules of
the question cover, given which nodes can. -/
structure Clause.Foreseen (nullable : NodeId -> Prop)
    (clause : Clause L PatternProgram NodeId) : Prop where
  leaves : forall atom, clause = .leaf atom -> atom.isNullable = true
  transforms : forall inner transform, clause = .map inner transform -> ¬transform.Recovers
  looks : forall inner look negative, clause = .lookahead inner look negative -> nullable look
  loops : forall inner element min max, clause = .repeated inner element min max ->
    ¬nullable inner ∧ forall greatest, max = some greatest -> min ≤ greatest

/-- Such a clause is nullable by the rules if it can match without advancing. -/
theorem Clause.Foreseen.nullableFrom {nullable : NodeId -> Prop} {input : L.Input}
    {clause : Clause L PatternProgram NodeId} (foreseen : clause.Foreseen nullable)
    (idle : clause.NullableBy input nullable) : clause.NullableFrom nullable := by
  cases clause with
  | leaf atom => exact foreseen.leaves atom rfl
  | map inner transform =>
      rcases idle with isNullable | recovers
      · exact isNullable
      · exact absurd recovers (foreseen.transforms inner transform rfl)
  | update inner next => exact idle
  | sequence items gather => exact idle
  | choice alts => exact idle
  | optional inner element => trivial
  | attempt inner => exact idle
  | lookahead inner look negative => exact foreseen.looks inner look negative rfl
  | repeated inner element min max =>
      have checked := foreseen.loops inner element min max rfl
      rcases idle with none | none | isNullable
      · exact none
      · exact Nat.le_zero.mp (checked.2 0 none)
      · exact absurd isNullable checked.1
  | reference name expected target => exact idle.elim
  | leftRecursion inner => exact idle

/-! ## Functions -/

namespace Transform

variable {source target : ValueType L.Kind}

/-- A function that keeps failures makes no values of them. -/
theorem ofTyped_not_recovers
    {f : Except (ParseError L.Payload) (source.Carrier L) -> Token L ->
      Except (ParseError L.Payload) (target.Carrier L)}
    (keeps : forall before token, exists error, f (.error before) token = .error error) :
    ¬(ofTyped source target f).Recovers := by
  rintro ⟨before, token, value, result⟩
  rcases keeps before token with ⟨error, isError⟩
  rw [ofTyped, isError] at result
  cases result

theorem andThen_not_recovers {first second : Transform L} (firstKeeps : ¬first.Recovers)
    (secondKeeps : ¬second.Recovers) : ¬(first.andThen second).Recovers := by
  rintro ⟨before, token, value, result⟩
  rw [andThen] at result
  cases made : first (.error before) token with
  | error fault =>
      rw [made] at result
      cases result
  | ok middle =>
      rw [made] at result
      cases middle with
      | ok between => exact firstKeeps ⟨before, token, between, made⟩
      | error error => exact secondKeeps ⟨error, token, value, result⟩

end Transform

/-! ## Runs -/

/-- Whether nothing in a grammar makes matches of its own: there are no leaves of
the author's, and no function turns a failure into a value. -/
structure Grammar.Unextended (grammar : Grammar L) : Prop where
  noCustom : forall (id : NodeId) name act, grammar.nodes[id]? ≠ some (.leaf (.custom name act))
  noRecovery : forall (id inner : NodeId) transform,
    grammar.nodes[id]? = some (.map inner transform) -> ¬transform.Recovers

theorem Grammar.Unextended.countsFit {grammar : Grammar L} (unextended : grammar.Unextended)
    (input : L.Input) : grammar.CountsFit input :=
  fun id name act found => absurd found (unextended.noCustom id name act)

/-- Whether answers of no are justified, and those about the operands of loops
are among them, besides what else a check of the grammar finds. -/
structure Grammar.Judged (grammar : Grammar L) (known : Nullability) : Prop where
  unextended : grammar.Unextended
  justified : grammar.Justified known
  literals : forall (id : NodeId) literal,
    grammar.nodes[id]? = some (.leaf (.exact literal)) -> Stream.length literal ≠ 0
  loops : forall (id : NodeId) clause, grammar.nodes[id]? = some clause -> forall inner,
    clause.looped? = some inner -> Grammar.Denied known inner
  bounds : forall (id : NodeId) inner element min max,
    grammar.nodes[id]? = some (.repeated inner element min max) ->
      forall greatest, max = some greatest -> min ≤ greatest

/-- Whether a match does not advance from a place, and is one of a kind that the
question about nullability misjudges: it is of a regular expression that does not
match the empty text, or of a condition on what follows, for which what follows
is answered with no. -/
def Event.Misjudged (grammar : Grammar L) (known : Nullability) (position : Nat) :
    Event L -> Prop
  | entered _ _ _ => False
  | finished _ id first outcome after =>
    outcome.isOk = true ∧ first.position = position ∧ after.position = position ∧
      ((exists source program text,
          grammar.nodes[id]? = some (.leaf (.pattern source program text)) ∧
            program.isMatch [] = false) ∨
        exists inner look negative, grammar.nodes[id]? = some (.lookahead inner look negative) ∧
          (grammar.isNullable look known).1 = false)

namespace Machine

/-- Whether a node matches without advancing from where it starts. -/
def Idles (machine : Machine L) (steps depth : Nat) (id : NodeId) (context : Context L) : Prop :=
  exists value after, machine.run steps depth id context = .finished (.ok value) after ∧
    after.position = context.position

/-- Whether there is a misjudged match in the course of a run, at the place where
the run starts. -/
def Misjudges (machine : Machine L) (known : Nullability) (steps depth : Nat) (id : NodeId)
    (context : Context L) : Prop :=
  exists event, event ∈ machine.trace steps depth id context ∧
    event.Misjudged machine.grammar known context.position

/-- Whether every node that matches without advancing is answered with yes. -/
def AnswersIdle (machine : Machine L) (known : Nullability) : Prop :=
  forall steps depth id context, context.Within (machine.bounds True) ->
    machine.Idles steps depth id context -> (machine.grammar.isNullable id known).1 = true

/-- Whether no operand of a loop matches without advancing. -/
def LoopsAdvance (machine : Machine L) : Prop :=
  forall (loop : NodeId) clause inner, machine.grammar.nodes[loop]? = some clause ->
    clause.looped? = some inner -> forall steps depth context,
      context.Within (machine.bounds True) -> ¬machine.Idles steps depth inner context

/-- Whether every node that matches without advancing is answered with yes, unless
its run misjudges a match, and whether an operand of a loop that does so misjudges
one. -/
structure JudgesIdle (machine : Machine L) (known : Nullability) : Prop where
  answers : forall steps depth id context, context.Within (machine.bounds True) ->
    machine.Idles steps depth id context -> (machine.grammar.isNullable id known).1 = true ∨
      machine.Misjudges (machine.grammar.isNullable id known).2 steps depth id context
  loops : forall (loop : NodeId) clause inner, machine.grammar.nodes[loop]? = some clause ->
    clause.looped? = some inner -> forall steps depth context,
      context.Within (machine.bounds True) -> machine.Idles steps depth inner context ->
        machine.Misjudges known steps depth inner context

variable {machine : Machine L} {known : Nullability}

/-- What a call misjudges at the place of a node is misjudged by the node. -/
theorem Misjudges.of_call {steps depth : Nat} {id : NodeId} {context : Context L}
    {made : NodeId × Context L} (isCall : made ∈ machine.callsOf steps depth id context)
    (here : made.2.position = context.position)
    (misjudges : machine.Misjudges known steps (depth + 1) made.1 made.2) :
    machine.Misjudges known (steps + 1) depth id context := by
  rcases misjudges with ⟨event, member, misjudged⟩
  rw [here] at misjudged
  exact ⟨event, mem_trace_succ.mpr (Or.inr (Or.inl ⟨made, isCall, member⟩)), misjudged⟩

/-- A node that matches without advancing and misjudges nothing does so in a way
that the rules cover. -/
theorem foreseen_of_idles (judged : machine.grammar.Judged known)
    (reads : machine.grammar.ReadsWithin machine.input) {steps depth : Nat} {id : NodeId}
    {context after : Context L} {value : Value L}
    (ends : machine.run (steps + 1) depth id context = .finished (.ok value) after)
    (stays : after.position = context.position)
    (judges : ¬machine.Misjudges known (steps + 1) depth id context)
    {clause : Clause L PatternProgram NodeId} (found : machine.grammar.nodes[id]? = some clause) :
    clause.Foreseen fun node => ¬Grammar.Denied known node where
  leaves := by
    rintro atom rfl
    apply Leaf.isNullable_of_stays (reads id atom found) _ _ (run_leaf found ends) stays
    · rintro literal rfl
      exact judged.literals id literal found
    · intro unforeseen
      cases unforeseen with
      | pattern no =>
          exact judges ⟨_, mem_trace_succ.mpr (Or.inr (Or.inr ⟨_, _, ends, rfl⟩)), rfl, rfl, stays,
            Or.inl ⟨_, _, _, found, no⟩⟩
      | custom => exact judged.unextended.noCustom id _ _ found
  transforms := by
    rintro inner transform rfl
    exact judged.unextended.noRecovery id inner transform found
  looks := by
    rintro inner look negative rfl denied
    exact judges ⟨_, mem_trace_succ.mpr (Or.inr (Or.inr ⟨_, _, ends, rfl⟩)), rfl, rfl, stays,
      Or.inr ⟨inner, look, negative, found,
        machine.grammar.isNullableWithin_of_denied _ denied⟩⟩
  loops := by
    rintro inner element min max rfl
    exact ⟨not_not_intro (judged.loops id _ found inner rfl), judged.bounds id _ _ _ _ found⟩

/-- A node that matches without advancing has not been answered with no, or there
is a misjudged match.  The induction is on the steps.  Calls may be made anywhere,
but those that matter are made where the node starts. -/
theorem run_judges (judged : machine.grammar.Judged known)
    (reads : machine.grammar.ReadsWithin machine.input) (steps depth : Nat) (id : NodeId)
    {context : Context L} (within : context.Within (machine.bounds True)) :
    (machine.run steps depth id context).Honours
      ((machine.bounds True).ending
        (¬Grammar.Denied known id ∨ machine.Misjudges known steps depth id context) context) := by
  induction steps generalizing depth id context with
  | zero => trivial
  | succ steps inductionHypothesis =>
      let spared (node : NodeId) : Prop :=
        ¬Grammar.Denied known node ∨ machine.Misjudges known (steps + 1) depth id context
      have calls : forall made, made ∈ machine.callsOf steps depth id context ->
          context.Reaches (machine.bounds True) made.2 ->
            (machine.run steps (depth + 1) made.1 made.2).Honours
              ((machine.bounds True).ending
                (made.2.position ≤ context.position -> spared made.1) made.2) := by
        intro made isCall reaches
        apply Reply.Honours.idle_imp (inductionHypothesis (depth + 1) made.1 reaches.within)
        rintro (isSpared | misjudges) here
        · exact Or.inl isSpared
        · have same := Nat.le_antisymm here (reaches.forward trivial)
          exact Or.inr (misjudges.of_call isCall same)
      have node := step_obeys reads within
        (fun _ => never_wraps reads (judged.unextended.countsFit _) within) calls
      apply Reply.Honours.idle_of_match node.1
      rintro value after ends reaches stays ⟨clause, found, idle⟩
      by_cases misjudges : machine.Misjudges known (steps + 1) depth id context
      · exact Or.inr misjudges
      · left
        intro denied
        have same := Nat.le_antisymm stays.2 (reaches.forward trivial)
        have foreseen := foreseen_of_idles judged reads ends same misjudges found
        simp only [spared, misjudges, or_false] at idle
        exact judged.justified id clause denied found (foreseen.nullableFrom idle)

/-- The same about the run itself. -/
theorem misjudges_of_denied (judged : machine.grammar.Judged known)
    (reads : machine.grammar.ReadsWithin machine.input) {steps depth : Nat} {id : NodeId}
    {context : Context L} (within : context.Within (machine.bounds True))
    (idles : machine.Idles steps depth id context) (denied : Grammar.Denied known id) :
    machine.Misjudges known steps depth id context := by
  rcases idles with ⟨value, after, ends, stays⟩
  have honours := run_judges judged reads steps depth id within
  rw [ends] at honours
  rcases honours.2 ⟨trivial, Nat.le_of_eq stays⟩ with spared | misjudges
  · exact absurd denied spared
  · exact misjudges

end Machine

namespace GrammarBuilder

theorem build_judged {builder : GrammarBuilder L} {cache after : PatternCache}
    {built : BuiltGrammar L} (accepted : builder.build cache = (.ok built, after))
    (unextended : built.grammar.Unextended) {known : Nullability}
    (asked : built.grammar.Asked built.known known) : built.grammar.Judged known where
  unextended := unextended
  justified := asked.justified ((build_denies accepted).1.justified built.grammar.justified_unknown)
  literals := (build_ordered accepted).literals
  loops id clause found inner loops :=
    ((build_denies accepted).2 id clause found inner loops).extends asked.extends
  bounds id _ _ _ _ found := ((build_advances accepted).2 id _ found).2

/-- In a built grammar a node that matches without advancing is answered with
yes, whatever has been asked before, unless a match at the same place is misjudged
in the course of it.  There is such a match if the node is the operand of a
loop, since that has been answered with no. -/
theorem build_judgesIdle {builder : GrammarBuilder L} {cache after : PatternCache}
    {machine : Machine L} {known : Nullability}
    (accepted : builder.build cache = (.ok ⟨machine.grammar, known⟩, after))
    (unextended : machine.grammar.Unextended)
    (reads : machine.grammar.ReadsWithin machine.input) (queries : List Grammar.Query) :
    machine.JudgesIdle (machine.grammar.knownAfter queries known) := by
  have asked := machine.grammar.knownAfter_asked queries known
  have judged := build_judged accepted unextended asked
  constructor
  · intro steps depth id context within idles
    cases answer : (machine.grammar.isNullable id _).1 with
    | true => exact Or.inl rfl
    | false =>
        have later := build_judged accepted unextended
          (asked.trans (Grammar.Asked.single machine.grammar id _))
        have denied :=
          (machine.grammar.isNullableWithin_justified _ id _ judged.justified).2 answer
        exact Or.inr (Machine.misjudges_of_denied later reads within idles denied)
  · intro loop clause inner found loops steps depth context within idles
    exact Machine.misjudges_of_denied judged reads within idles
      (judged.loops loop clause found inner loops)

/-! ## Looking at letters -/

/-- Puts a text in quotes. -/
def quotes : String -> Token plainText -> String :=
  fun text _ => "'" ++ text ++ "'"

/-- Nothing, in quotes, as often as a letter follows. -/
def peeksParser : Construction (Parser plainText (.list .text)) := do
  let nothing ← (← Parser.empty).slice
  let quoted : Parser plainText .text ← nothing.map quotes
  (← quoted.followedBy (← Parser.exact "a")).many

/-- The rule that looks at letters. -/
def peeks : GrammarBuilder plainText :=
  ⟨[⟨"peeks", .list .text, (peeksParser 0).1⟩]⟩

/-- Takes the text that was matched and puts it in quotes. -/
def quotedText : Transform plainText :=
  (Transform.ofTyped .unit .text fun result token => result.map fun _ => token.span).andThen
    (Transform.ofTyped .text .text fun result token => result.map (quotes · token))

/-- The nodes of the rule that looks at letters. -/
def peekGrammar : Grammar plainText :=
  ⟨[.leaf .empty, .map 0 quotedText, .leaf (.exact "a"), .lookahead 1 2 false,
    .repeated 3 .text 0 none], [⟨"peeks", .list .text, 4⟩]⟩

theorem peeks_accepted : exists known,
    peeks.build PatternCache.empty = (.ok ⟨peekGrammar, known⟩, PatternCache.empty) :=
  ⟨_, rfl⟩

/-- The start of a word, as a rule of its own. -/
def wordStart : GrammarBuilder plainText :=
  ⟨[⟨"start", .captures, (Parser.regex "\\b" 0).1⟩]⟩

/-- The node of the rule of the start of a word. -/
def wordStartGrammar (program : PatternProgram) : Grammar plainText :=
  ⟨[.leaf (.pattern "\\b" program CharStream.text)], [⟨"start", .captures, 0⟩]⟩

theorem wordStart_accepted : exists program cache,
    wordStart.build PatternCache.empty =
        (.ok ⟨wordStartGrammar program, Nullability.unknown 1⟩, cache) ∧
      program.isMatch [] = false ∧ exists found, program.find? ['a'] = some found ∧
        found.stop = 0 :=
  ⟨_, _, rfl, rfl, _, rfl, rfl⟩

/-- A word starts in front of a letter. -/
theorem wordStart_idles {program : PatternProgram} {found : PatternMatch}
    (matched : program.find? ['a'] = some found) (stop : found.stop = 0) :
    ((wordStartGrammar program).machine "a").Idles 1 1 0 (Context.start ()) := by
  let machine := (wordStartGrammar program).machine "a"
  let atom : Leaf plainText PatternProgram := .pattern "\\b" program CharStream.text
  have isLeaf : machine.grammar.nodes[0]? = some (.leaf atom) := rfl
  have isInput : machine.input = "a" := rfl
  have dropped : Text.dropBytes (Context.start () : Context plainText).position
      (CharStream.text (S := plainText.Input) "a").toList = some ['a'] := rfl
  have isRun : atom.run "a" 0 (Context.start ()) =
      Leaf.matched (Context.start ()) ⟨.captures, found.captures⟩
        (0 + Text.byteLength (['a'].take 0)) := by
    simp only [atom, Leaf.run, dropped, matched, stop]
    rfl
  refine ⟨⟨.captures, found.captures⟩, Context.start (), ?_, rfl⟩
  rw [Machine.run_clause rfl isLeaf, Clause.run, isInput, isRun]
  rfl

theorem peekGrammar_unextended : peekGrammar.Unextended where
  noCustom := by
    intro id name act found
    have member := List.mem_of_getElem? found
    simp [peekGrammar] at member
  noRecovery := by
    intro id inner transform found
    have member := List.mem_of_getElem? found
    have isQuoted : transform = quotedText := by
      simp [peekGrammar] at member
      exact member.2
    rw [isQuoted]
    apply Transform.andThen_not_recovers
    · exact Transform.ofTyped_not_recovers fun before token => ⟨before, rfl⟩
    · exact Transform.ofTyped_not_recovers fun before token => ⟨before, rfl⟩

/-- The operand of the repetition matches in front of the second letter without
advancing, and so there is a misjudged match. -/
theorem peeks_judgesIdle : peekGrammar.Unextended ∧ peekGrammar.ReadsWithin "aa" ∧
    exists known,
      peeks.build PatternCache.empty = (.ok ⟨peekGrammar, known⟩, PatternCache.empty) ∧
      (peekGrammar.machine "aa").JudgesIdle (peekGrammar.knownAfter [.warnings "peeks"] known) ∧
      (peekGrammar.machine "aa").Misjudges (peekGrammar.knownAfter [.warnings "peeks"] known)
        3 1 3 ⟨1, (), (0, 0), SeedTable.empty⟩ := by
  have reads : peekGrammar.ReadsWithin "aa" := by
    intro id atom found
    have member := List.mem_of_getElem? found
    simp [peekGrammar] at member
    rcases member with rfl | rfl
    · trivial
    · exact Leaf.exact_readsWithin (L := plainText) "aa" "a"
  have within : Context.Within ((peekGrammar.machine "aa").bounds True)
      ⟨1, (), (0, 0), SeedTable.empty⟩ := Context.within_of_no_seeds (by decide) rfl
  have idles : (peekGrammar.machine "aa").Idles 3 1 3 ⟨1, (), (0, 0), SeedTable.empty⟩ :=
    ⟨_, _, rfl, rfl⟩
  rcases peeks_accepted with ⟨known, accepted⟩
  have judges : (peekGrammar.machine "aa").JudgesIdle
      (peekGrammar.knownAfter [.warnings "peeks"] known) :=
    build_judgesIdle accepted peekGrammar_unextended reads _
  exact ⟨peekGrammar_unextended, reads, known, accepted, judges,
    judges.loops 4 _ 3 rfl rfl 3 1 _ within idles⟩

/-- A condition on what follows is answered for the letter that follows, and a
regular expression for the empty text, where no word starts. -/
theorem idle_matches_misjudged :
    (peekGrammar.Unextended ∧ exists known,
      peeks.build PatternCache.empty = (.ok ⟨peekGrammar, known⟩, PatternCache.empty) ∧
      ¬(peekGrammar.machine "a").AnswersIdle known ∧ ¬(peekGrammar.machine "a").LoopsAdvance) ∧
    exists program cache, (wordStartGrammar program).Unextended ∧
      wordStart.build PatternCache.empty =
        (.ok ⟨wordStartGrammar program, Nullability.unknown 1⟩, cache) ∧
      ¬((wordStartGrammar program).machine "a").AnswersIdle (Nullability.unknown 1) := by
  have start : forall machine : Machine plainText,
      (Context.start ()).Within (machine.bounds True) :=
    fun machine => Context.start_within (machine.bounds True) ()
  constructor
  · have idles : (peekGrammar.machine "a").Idles 3 1 3 (Context.start ()) := ⟨_, _, rfl, rfl⟩
    refine ⟨peekGrammar_unextended, _, rfl, ?_, ?_⟩
    · intro answers
      cases answers 3 1 3 (Context.start ()) (start _) idles
    · intro advance
      exact advance 4 _ 3 rfl rfl 3 1 (Context.start ()) (start _) idles
  · rcases wordStart_accepted with ⟨program, cache, accepted, no, found, matched, stop⟩
    refine ⟨program, cache, ⟨?_, ?_⟩, accepted, ?_⟩
    · intro id name act isLeaf
      cases List.mem_singleton.mp (List.mem_of_getElem? isLeaf)
    · intro id inner transform isMap
      cases List.mem_singleton.mp (List.mem_of_getElem? isMap)
    · intro answers
      have yes := answers 1 1 0 (Context.start ()) (start _) (wordStart_idles matched stop)
      have same : ((wordStartGrammar program).isNullable 0 (Nullability.unknown 1)).1 =
          program.isMatch [] := rfl
      have isMatch : program.isMatch [] = true := same.symm.trans yes
      rw [no] at isMatch
      cases isMatch

end GrammarBuilder
end SeedGrammar
