import SeedGrammar.Proofs.Engine.Exchange

namespace SeedGrammar

/-!
# Grouping alternatives

Adding an alternative to alternatives joins them, while alternatives that are
added stay together.  Three parsers can therefore be made alternatives of each
other in three ways, which come to different expressions: one choice of all that
the first two offer and the third, one choice with another for its last
alternative, or one choice of the three as they are.

All try the same parsers in the same order.  What makes this right is that a
choice starts each alternative where it has started itself, that a choice within
it does the same, and that each goes on after a failure at that place and at no
other.  The failure that counts in the end is the last, on whichever level it
came about.  Seeds are kept by every failure, on both levels.
-/

variable {L : Signature}

/-! ## Following up to nothing -/

namespace Reply

variable {β : Type}

theorem follows_self (reply : Reply L (Outcome L)) :
    reply.Follows (Agreement.identical L) reply := by
  cases reply with
  | finished outcome context => exact .finished (AnswersAlike.refl (fun _ => rfl) outcome) rfl
  | halted error context => exact .halted (ParseError.Alike.refl (fun _ => rfl) error) rfl
  | faulted fault => exact .faulted (Fault.Alike.refl (fun _ => rfl) fault)
  | exhausted => exact .exhausted

namespace Follows

variable {agreement : Agreement L} {reply middle other : Reply L (Outcome L)}

/-- A run is continued by what follows from the same outcome. -/
theorem continued {next next' : Outcome L -> Context L -> Reply L (Outcome L)}
    (follows : reply.Follows (Agreement.identical L) other)
    (rest : forall outcome after,
      (next outcome after).Follows (Agreement.identical L) (next' outcome after)) :
    (reply.andThen next).Follows (Agreement.identical L) (other.andThen next') := by
  apply follows.andThen
  intro outcome outcome' after after' alike same
  rw [alike.eq, show after = after' from same]
  exact rest outcome' after'

theorem of_identical (first : reply.Follows (Agreement.identical L) middle)
    (second : middle.Follows agreement other) : reply.Follows agreement other := by
  by_cases spent : reply = .exhausted
  · rw [spent]
    exact .exhausted
  · rwa [first.eq spent] at second

theorem trans_identical (first : reply.Follows agreement middle)
    (second : middle.Follows (Agreement.identical L) other) : reply.Follows agreement other := by
  by_cases spent : middle = .exhausted
  · rw [spent] at first
    cases first
    exact .exhausted
  · rwa [second.eq spent]

end Follows
end Reply

/-! ## Trying alternatives -/

section Trying

variable {α β : Type} {call : Caller L α} {self : NodeId} {start : Snapshot L}

/-- What follows an alternative in a choice: nothing if it has matched or has
failed after it advanced, else the other alternatives. -/
def resumeChoice (call : Caller L α) (self : NodeId) (start : Snapshot L) (rest : List α)
    (outcome : Outcome L) (after : Context L) : Reply L (Outcome L) :=
  match outcome with
  | .ok value => .finished (.ok value) after
  | .error error =>
    if after.position = start.position then
      runChoice call self start (some error) rest (after.restore start)
    else .finished (.error error) after

theorem runChoice_cons (last : Option (ParseError L.Payload)) (alt : α) (rest : List α)
    (context : Context L) :
    runChoice call self start last (alt :: rest) context =
      (call alt context).andThen (resumeChoice call self start rest) := by
  rw [runChoice]
  rfl

/-- A failure that has already been undone is undone once more without effect. -/
theorem resumeChoice_restored (error : ParseError L.Payload) (rest : List α) (after : Context L) :
    resumeChoice call self start rest (.error error) (after.restore start) =
      runChoice call self start (some error) rest (after.restore start) :=
  if_pos rfl

/-- Alternatives are tried one list after the other.  The number of the choice
only shows in a choice of nothing. -/
theorem runChoice_append {first : List α} (nonempty : first ≠ []) (rest : List α) (self' : NodeId)
    (last last' : Option (ParseError L.Payload)) (context : Context L) :
    runChoice call self start last (first ++ rest) context =
      (runChoice call self' start last' first context).andThen
        (resumeChoice call self start rest) := by
  induction first generalizing last last' context with
  | nil => exact absurd rfl nonempty
  | cons alt others inductionHypothesis =>
      rw [List.cons_append, runChoice_cons, runChoice_cons, Reply.andThen_assoc]
      congr 1
      funext outcome after
      cases outcome with
      | ok value => rfl
      | error error =>
          simp only [resumeChoice]
          by_cases stayed : after.position = start.position
          · simp only [if_pos stayed]
            cases others with
            | nil => exact (resumeChoice_restored error rest after).symm
            | cons next others =>
                exact inductionHypothesis (List.cons_ne_nil next others) (some error) (some error) _
          · simp only [if_neg stayed]
            exact (if_neg stayed).symm

theorem runChoice_map {f : β -> α} (last : Option (ParseError L.Payload)) (alts : List β)
    (context : Context L) :
    runChoice call self start last (alts.map f) context =
      runChoice (fun alt => call (f alt)) self start last alts context := by
  induction alts generalizing last context with
  | nil => cases last <;> rfl
  | cons alt rest inductionHypothesis =>
      rw [List.map_cons, runChoice_cons, runChoice_cons]
      congr 1
      funext outcome after
      cases outcome with
      | ok value => rfl
      | error error => simp only [resumeChoice, inductionHypothesis]

end Trying

/-! ## Lists of alternatives that try the same -/

/-- Whether a choice of some alternatives tries certain parts: each alternative
is a part, or a choice of parts. -/
inductive TriesAll : List (Expr L) -> List (Expr L) -> Prop where
  | nil : TriesAll [] []
  | single {alt : Expr L} {alts parts : List (Expr L)} : TriesAll alts parts ->
      TriesAll (alt :: alts) (alt :: parts)
  | splice {key : Nat} {inner alts parts : List (Expr L)} : inner ≠ [] -> TriesAll alts parts ->
      TriesAll (.node key (.choice inner) :: alts) (inner ++ parts)

namespace TriesAll

theorem refl (alts : List (Expr L)) : TriesAll alts alts := by
  induction alts with
  | nil => exact .nil
  | cons alt rest inductionHypothesis => exact .single inductionHypothesis

theorem append {alts parts alts' parts' : List (Expr L)} (tries : TriesAll alts parts)
    (tries' : TriesAll alts' parts') : TriesAll (alts ++ alts') (parts ++ parts') := by
  induction tries with
  | nil => exact tries'
  | single _ inductionHypothesis => exact .single inductionHypothesis
  | splice nonempty _ inductionHypothesis =>
      rw [List.append_assoc]
      exact .splice nonempty inductionHypothesis

/-- An expression tries its alternatives. -/
theorem alternatives {expr : Expr L} (nonempty : expr.alternatives ≠ []) :
    TriesAll [expr] expr.alternatives := by
  rcases expr with ⟨key, clause⟩
  cases clause with
  | choice alts =>
      have tries : TriesAll [.node key (.choice alts)] (alts ++ []) := .splice nonempty .nil
      rwa [List.append_nil] at tries
  | _ => exact .single .nil

/-- What is tried is an alternative, or within one. -/
theorem within {alts parts : List (Expr L)} (tries : TriesAll alts parts) {part : Expr L}
    (member : part ∈ parts) : exists alt, alt ∈ alts ∧ part.Within alt := by
  induction tries with
  | nil => cases member
  | single _ inductionHypothesis =>
      rcases List.mem_cons.mp member with isFirst | later
      · rw [isFirst]
        exact ⟨_, List.mem_cons_self .., .self _⟩
      · rcases inductionHypothesis later with ⟨alt, isAlt, inside⟩
        exact ⟨alt, List.mem_cons_of_mem _ isAlt, inside⟩
  | splice _ _ inductionHypothesis =>
      rcases List.mem_append.mp member with inner | later
      · exact ⟨_, List.mem_cons_self .., Expr.within_of_mem_children inner⟩
      · rcases inductionHypothesis later with ⟨alt, isAlt, inside⟩
        exact ⟨alt, List.mem_cons_of_mem _ isAlt, inside⟩

/-- A choice can replace the state if one of its alternatives can. -/
theorem writes_choice {among : GrammarBuilder L} {key : Nat} {alts : List (Expr L)} :
    among.Writes (.node key (.choice alts)) ↔ exists alt, alt ∈ alts ∧ among.Writes alt := by
  constructor
  · intro writes
    cases writes with
    | update isUpdate => cases isUpdate
    | operand isChild writes => exact ⟨_, isChild, writes⟩
    | reference isReference => cases isReference
  · rintro ⟨alt, isAlt, writes⟩
    exact .operand isAlt writes

theorem writes_iff {alts parts : List (Expr L)} (tries : TriesAll alts parts)
    (among : GrammarBuilder L) :
    (exists alt, alt ∈ alts ∧ among.Writes alt) ↔
      exists part, part ∈ parts ∧ among.Writes part := by
  induction tries with
  | nil => exact Iff.rfl
  | single _ inductionHypothesis =>
      simp only [List.exists_mem_cons_iff, inductionHypothesis]
  | splice _ _ inductionHypothesis =>
      simp only [List.exists_mem_cons_iff, List.mem_append, or_and_right, exists_or,
        inductionHypothesis, writes_choice]

/-- Choices of the same parts are related as long as the calls are, where a
choice within a choice may be called or be run in place.  The relation stands
for "comes to the same with fewer steps" in either direction. -/
theorem runChoice_related (related : Reply L (Outcome L) -> Reply L (Outcome L) -> Prop)
    (same : forall reply, related reply reply)
    (continued : forall reply other next next', related reply other ->
      (forall outcome after, related (next outcome after) (next' outcome after)) ->
      related (reply.andThen next) (other.andThen next'))
    {call other : Caller L (Expr L)} {alts parts : List (Expr L)} (tries : TriesAll alts parts)
    (calls : forall alt, alt ∈ alts -> forall context, related (call alt context) (other alt context))
    (name : Expr L -> NodeId)
    (nested : forall key inner, Expr.node key (.choice inner) ∈ alts -> forall context,
      related (call (.node key (.choice inner)) context)
        (runChoice other (name (.node key (.choice inner))) context.snapshot none inner context))
    (self : NodeId) (start : Snapshot L) (last : Option (ParseError L.Payload))
    {context : Context L} (started : context.snapshot = start) :
    related (runChoice call self start last alts context)
      (runChoice other self start last parts context) := by
  have resumed : forall alts parts,
      (forall error after, related
        (runChoice call self start (some error) alts (Context.restore after start))
        (runChoice other self start (some error) parts (Context.restore after start))) ->
      forall outcome after, related (resumeChoice call self start alts outcome after)
        (resumeChoice other self start parts outcome after) := by
    intro alts parts rest outcome after
    cases outcome with
    | ok value => exact same _
    | error error =>
        simp only [resumeChoice]
        split
        · exact rest error after
        · exact same _
  induction tries generalizing last context with
  | nil =>
      cases last with
      | none => exact same _
      | some error => exact same _
  | single _ inductionHypothesis =>
      rw [runChoice_cons, runChoice_cons]
      apply continued _ _ _ _ (calls _ (List.mem_cons_self ..) context)
      apply resumed
      intro error after
      exact inductionHypothesis (fun alt member => calls alt (List.mem_cons_of_mem _ member))
        (fun key inner member => nested key inner (List.mem_cons_of_mem _ member)) (some error) rfl
  | @splice key inner _ _ nonempty _ inductionHypothesis =>
      rw [runChoice_cons, runChoice_append nonempty _ (name (.node key (.choice inner))) last none]
      have here := nested key inner (List.mem_cons_self ..) context
      rw [started] at here
      apply continued _ _ _ _ here
      apply resumed
      intro error after
      exact inductionHypothesis (fun alt member => calls alt (List.mem_cons_of_mem _ member))
        (fun key inner member => nested key inner (List.mem_cons_of_mem _ member)) (some error) rfl

end TriesAll

/-! ## Choices of a resolved grammar -/

section Resolved

variable {resolved : ResolvedGrammar L} {input : L.Input} {key : Nat} {alts parts : List (Expr L)}

namespace ResolvedGrammar

/-- The node of a choice tries the nodes of the alternatives. -/
theorem run_choice (contained : resolved.builder.Contains (.node key (.choice alts)))
    (steps depth : Nat) (context : Context L) :
    (resolved.machine input).run (steps + 1) depth (resolved.node (.node key (.choice alts)))
        context =
      runChoice (fun alt => (resolved.machine input).run steps 1 (resolved.node alt))
        (resolved.node (.node key (.choice alts))) context.snapshot none alts context := by
  rcases resolved.resolution.clause _ contained rfl with ⟨compiled, _, isCompiled, _, _⟩
  have isChoice := isCompiled
  rw [Expr.clause, Clause.compiled?, Option.ite_none_left_eq_some] at isChoice
  rw [resolved.run_operator contained rfl isCompiled, <- Option.some.inj isChoice.2]
  exact runChoice_map none alts context

/-- More steps for the alternatives do not change what a choice comes to. -/
theorem runChoice_more (resolved : ResolvedGrammar L) (input : L.Input) {steps more : Nat}
    (enough : steps ≤ more) (self : NodeId) (parts : List (Expr L)) (context : Context L) :
    (runChoice (fun alt => (resolved.machine input).run steps 1 (resolved.node alt)) self
        context.snapshot none parts context).Follows (Agreement.identical L)
      (runChoice (fun alt => (resolved.machine input).run more 1 (resolved.node alt)) self
        context.snapshot none parts context) := by
  have callers : (Agreement.identical L).Callers Eq
      (fun alt => (resolved.machine input).run steps 1 (resolved.node alt))
      (fun alt => (resolved.machine input).run more 1 (resolved.node alt)) := by
    rintro alt _ rfl first second same
    exact Machine.run_follows _ (Agreement.identical_covers _) enough (Or.inr rfl) trivial same
  exact Agreement.runChoice_follows callers rfl context.snapshot .none
    (List.forall₂_same.mpr fun _ _ => rfl) rfl

end ResolvedGrammar

variable (contained : resolved.builder.Contains (.node key (.choice alts)))
  (tries : TriesAll alts parts)
include contained tries

/-- A choice is followed by the choice of the parts that it tries. -/
theorem TriesAll.choice_follows (steps depth : Nat) (context : Context L) :
    ((resolved.machine input).run (steps + 1) depth (resolved.node (.node key (.choice alts)))
        context).Follows (Agreement.identical L)
      (runChoice (fun alt => (resolved.machine input).run steps 1 (resolved.node alt))
        (resolved.node (.node key (.choice alts))) context.snapshot none parts context) := by
  rw [ResolvedGrammar.run_choice contained]
  refine tries.runChoice_related (fun reply other => reply.Follows (Agreement.identical L) other)
    (fun reply => reply.follows_self) ?_ ?_ resolved.node ?_ _ _ _ rfl
  · intro reply other next next' follows rest
    exact follows.continued rest
  · intro alt _ context
    exact Reply.follows_self _
  · intro key' inner isAlt context
    cases steps with
    | zero => exact .exhausted
    | succ steps =>
        have inside := resolved.builder.contains_operandClosed _ _ contained isAlt
        rw [ResolvedGrammar.run_choice inside]
        exact resolved.runChoice_more input (Nat.le_succ steps) _ inner context

/-- The choice of the parts is followed by a choice that tries them, with two
steps more. -/
theorem TriesAll.follows_choice (steps depth : Nat) (context : Context L) :
    (runChoice (fun alt => (resolved.machine input).run steps 1 (resolved.node alt))
        (resolved.node (.node key (.choice alts))) context.snapshot none parts context).Follows
      (Agreement.identical L)
      ((resolved.machine input).run (steps + 2) depth (resolved.node (.node key (.choice alts)))
        context) := by
  rw [ResolvedGrammar.run_choice contained]
  refine tries.runChoice_related (fun reply other => other.Follows (Agreement.identical L) reply)
    (fun reply => reply.follows_self) ?_ ?_ resolved.node ?_ _ _ _ rfl
  · intro reply other next next' follows rest
    exact follows.continued rest
  · intro alt _ context
    exact Machine.run_follows _ (Agreement.identical_covers _) (Nat.le_succ steps) (Or.inr rfl)
      trivial rfl
  · intro key' inner isAlt context
    have inside := resolved.builder.contains_operandClosed _ _ contained isAlt
    rw [ResolvedGrammar.run_choice inside]
    exact Reply.follows_self _

end Resolved

/-- Choices that try the same mimic each other. -/
theorem ResolvedGrammar.choice_mimics {left right : ResolvedGrammar L}
    {nodes : NodeId -> NodeId -> Prop} {key key' : Nat} {alts alts' parts : List (Expr L)}
    (contained : left.builder.Contains (.node key (.choice alts)))
    (contained' : right.builder.Contains (.node key' (.choice alts')))
    (tries : TriesAll alts parts) (tries' : TriesAll alts' parts)
    (roots : nodes (left.node (.node key (.choice alts))) (right.node (.node key' (.choice alts'))))
    (input : L.Input) :
    left.Mimics right nodes (.node key (.choice alts)) (.node key' (.choice alts')) input 2 := by
  intro steps fewer callers more enough first second same
  have among : forall part, part ∈ parts ->
      left.Counterparts right (.node key (.choice alts)) (.node key' (.choice alts'))
        (left.node part) (right.node part) := by
    intro part member
    rcases tries.within member with ⟨alt, isAlt, inside⟩
    rcases tries'.within member with ⟨alt', isAlt', inside'⟩
    have closed := left.builder.contains_operandClosed
    have closed' := right.builder.contains_operandClosed
    exact .intro (closed.within inside (closed _ _ contained isAlt))
      (closed'.within inside' (closed' _ _ contained' isAlt')) (.refl _ _ part)
  have parts_follow : (runChoice (fun alt => (left.machine input).run steps 1 (left.node alt))
        (left.node (.node key (.choice alts))) first.snapshot none parts first).Follows
      (Agreement.keyed left right nodes)
      (runChoice (fun alt => (right.machine input).run fewer 1 (right.node alt))
        (right.node (.node key' (.choice alts'))) second.snapshot none parts second) := by
    have calls : (Agreement.keyed left right nodes).Callers
        (fun part part' => part = part' ∧ part ∈ parts)
        (fun alt => (left.machine input).run steps 1 (left.node alt))
        (fun alt => (right.machine input).run fewer 1 (right.node alt)) := by
      rintro part _ ⟨rfl, member⟩ before before' agree
      exact callers fewer (Nat.le_refl fewer) _ _ (among part member) before before' agree
    rw [Agreement.snapshot_eq same]
    exact Agreement.runChoice_follows calls roots second.snapshot .none
      (List.forall₂_same.mpr fun part member => ⟨rfl, member⟩) same
  have rest : ((right.machine input).run (fewer + 2) 1
        (right.node (.node key' (.choice alts'))) second).Follows (Agreement.identical L)
      ((right.machine input).run more 1 (right.node (.node key' (.choice alts'))) second) :=
    Machine.run_follows _ (Agreement.identical_covers _) enough (Or.inr rfl) trivial rfl
  exact (((tries.choice_follows contained steps 1 first).of_identical parts_follow).trans_identical
    (tries'.follows_choice contained' fewer 1 second)).trans_identical rest

/-! ## Three alternatives -/

/-- How three parsers are made alternatives of each other: the first two before
the third, the last two before the first, or all at once. -/
inductive Grouping where
  | left
  | right
  | flat
deriving DecidableEq, Repr

namespace Grouping

variable {type : ValueType L.Kind}

/-- Three parsers as alternatives of each other. -/
def join (grouping : Grouping) (p q r : Parser L type) : Construction (Parser L type) :=
  match grouping with
  | left => do
    let either ← p.orElse q
    either.orElse r
  | right => do
    let others ← q.orElse r
    p.orElse others
  | flat => Parser.choice [p, q, r]

/-- However three parsers are grouped, the alternatives of the first two and the
third are tried. -/
theorem join_triesAll (grouping : Grouping) {p q r : Parser L type}
    (someFirst : p.expr.alternatives ≠ []) (someSecond : q.expr.alternatives ≠ []) (next : Nat) :
    exists key alts, (grouping.join p q r next).1.expr = .node key (.choice alts) ∧
      TriesAll alts (p.expr.alternatives ++ (q.expr.alternatives ++ [r.expr])) := by
  have first := TriesAll.alternatives someFirst
  have second := TriesAll.alternatives someSecond
  have last : TriesAll [r.expr] [r.expr] := .refl _
  cases grouping with
  | left =>
      refine ⟨next + 1, p.expr.alternatives ++ [q.expr] ++ [r.expr], rfl, ?_⟩
      rw [<- List.append_assoc]
      exact ((TriesAll.refl _).append second).append last
  | right =>
      refine ⟨next + 1, p.expr.alternatives ++ [.node next (.choice (q.expr.alternatives ++ [r.expr]))],
        rfl, ?_⟩
      have nested : TriesAll [.node next (.choice (q.expr.alternatives ++ [r.expr]))]
          (q.expr.alternatives ++ [r.expr] ++ []) :=
        .splice (List.append_ne_nil_of_left_ne_nil someSecond _) .nil
      rw [List.append_nil] at nested
      exact (TriesAll.refl _).append nested
  | flat =>
      refine ⟨next, [p.expr] ++ ([q.expr] ++ [r.expr]), rfl, ?_⟩
      exact first.append (second.append last)

end Grouping

/-- Whether an expression can be lowered. -/
def Expr.Lowers (expr : Expr L) : Prop :=
  exists cache id state, (Lowering.expr expr).run.run (Lowering.start cache) = (.ok id, state)

/-- A choice of nothing is refused. -/
theorem Expr.Lowers.alternatives_ne_nil {expr : Expr L} (lowers : expr.Lowers) :
    expr.alternatives ≠ [] := by
  rcases expr with ⟨key, clause⟩
  cases clause with
  | choice alts =>
      intro nothing
      have isEmpty : alts = [] := nothing
      subst isEmpty
      rcases lowers with ⟨cache, id, state, isLowered⟩
      cases isLowered
  | _ => exact List.cons_ne_nil _ _

namespace Grouping

variable {type : ValueType L.Kind}

/-- How three parsers are grouped is not observable.  In a grammar that is built
with one grouping in some places and in the grammar that is built with another
grouping there, every rule parses alike from every position in every state, up to
the numbers of nodes. -/
theorem join_unobservable {p q r : Parser L type} (lowers : p.expr.Lowers)
    (lowers' : q.expr.Lowers) (one other : Grouping) {next next' : Nat}
    {builder builder' : GrammarBuilder L}
    (rules : List.Forall₂ (Definition.Exchanged (one.join p q r next).1.expr
      (other.join p q r next').1.expr) builder.definitions builder'.definitions)
    {cache after cache' after' : PatternCache} {built built' : BuiltGrammar L}
    (sound : cache.Sound) (sound' : cache'.Sound)
    (coherent : Coherent builder.Contains) (coherent' : Coherent builder'.Contains)
    (blind : builder.NodeBlind) (accepted : builder.build cache = (.ok built, after))
    (accepted' : builder'.build cache' = (.ok built', after')) {definition : Definition L}
    (member : definition ∈ builder.definitions) :
    exists entry entry', built.grammar.entryPoint definition.type definition.name = .ok entry ∧
      built'.grammar.entryPoint definition.type definition.name = .ok entry' ∧
      entry.ParsesAlike (fun _ _ => True) entry' := by
  have someFirst := lowers.alternatives_ne_nil
  have someSecond := lowers'.alternatives_ne_nil
  rcases one.join_triesAll someFirst someSecond next with ⟨key, alts, isOld, tries⟩
  rcases other.join_triesAll someFirst someSecond next' with ⟨key', alts', isNew, tries'⟩
  rw [isOld, isNew] at rules
  rcases GrammarBuilder.build_resolved sound coherent accepted with ⟨left, rfl, isGrammar⟩
  rcases GrammarBuilder.build_resolved sound' coherent' accepted' with ⟨right, rfl, isGrammar'⟩
  rw [<- isGrammar, <- isGrammar']
  have exchange : Exchange left right (.node key (.choice alts)) (.node key' (.choice alts'))
      fun _ _ => True :=
    { builders := ⟨rules, rfl, rfl, fun among => by
        rw [TriesAll.writes_choice, TriesAll.writes_choice, tries.writes_iff, tries'.writes_iff]⟩
      counterparts := fun _ _ _ => trivial
      respects := fun expr _ contained _ _ => blind.respects expr contained }
  exact exchange.parses_alike (Nat.succ_pos 1)
    (fun contained contained' =>
      ResolvedGrammar.choice_mimics contained contained' tries tries' trivial)
    (fun contained' contained =>
      ResolvedGrammar.choice_mimics contained' contained tries' tries trivial) member

/-! ### A word that starts with itself, counts and is grouped in two ways -/

/-- A word with a letter behind it or a letter, a letter that is counted, and
another letter. -/
def lettersParsers : Construction
    (Parser countedText .text × Parser countedText .text × Parser countedText .text) := do
  let word ← Parser.reference "word" .text
  let c ← Parser.exact "c"
  let longer ← word.thenLeft c
  let a ← Parser.exact "a"
  let either ← longer.orElse a
  let b ← Parser.exact "b"
  let counted ← b.updateState fun (count : Nat) _ => count + 1
  let d ← Parser.exact "d"
  return (either, counted, d)

/-- The three of them as alternatives, grouped in some way. -/
def joinedLetters (grouping : Grouping) (next : Nat) : Parser countedText .text :=
  (grouping.join (lettersParsers 0).1.1 (lettersParsers 0).1.2.1 (lettersParsers 0).1.2.2 next).1

/-- The grammar of words that are one of the three. -/
def words (grouping : Grouping) (next : Nat) : GrammarBuilder countedText :=
  ⟨[⟨"word", .text, ((joinedLetters grouping next).leftRecursive 10).1⟩]⟩

theorem words_coherent : Coherent (words .left 8).Contains ∧ Coherent (words .flat 9).Contains := by
  let word : Expr countedText := .node 0 (.reference "word" .text none)
  let c : Expr countedText := .node 1 (.leaf (.exact "c"))
  let longer : Expr countedText := .node 2 (.sequence [word, c] (.pick 0))
  let a : Expr countedText := .node 3 (.leaf (.exact "a"))
  let either : Expr countedText := .node 4 (.choice [longer, a])
  let b : Expr countedText := .node 5 (.leaf (.exact "b"))
  let counted : Expr countedText := .node 6 (.update b fun (count : Nat) _ => count + 1)
  let d : Expr countedText := .node 7 (.leaf (.exact "d"))
  have keys : KeysBelow 1 [word] := (KeysBelow.none 0).over _ (List.nil_subset _)
  have keys : KeysBelow 2 [c, word] := keys.over _ (List.nil_subset _)
  have keys : KeysBelow 3 [longer, c, word] := keys.over _ (by simp [Clause.children])
  have keys : KeysBelow 4 [a, longer, c, word] := keys.over _ (List.nil_subset _)
  have keys : KeysBelow 5 [either, a, longer, c, word] := keys.over _ (by simp [Clause.children])
  have keys : KeysBelow 6 [b, either, a, longer, c, word] := keys.over _ (List.nil_subset _)
  have keys : KeysBelow 7 [counted, b, either, a, longer, c, word] :=
    keys.over _ (by simp [Clause.children])
  have keys : KeysBelow 8 [d, counted, b, either, a, longer, c, word] :=
    keys.over _ (List.nil_subset _)
  constructor
  · have keys := keys.over (.choice [longer, a, counted]) (by simp [Clause.children])
    have keys := keys.over (.choice [longer, a, counted, d]) (by simp [Clause.children])
    have keys := keys.over (.leftRecursion _)
      (List.cons_subset.mpr ⟨List.mem_cons_self .., List.nil_subset _⟩)
    apply keys.contains_coherent
    intro definition member
    rw [List.mem_singleton.mp member]
    exact List.mem_cons_self ..
  · have keys := keys.raised (Nat.le_succ 8)
    have keys := keys.over (.choice [either, counted, d]) (by simp [Clause.children])
    have keys := keys.over (.leftRecursion _)
      (List.cons_subset.mpr ⟨List.mem_cons_self .., List.nil_subset _⟩)
    apply keys.contains_coherent
    intro definition member
    rw [List.mem_singleton.mp member]
    exact List.mem_cons_self ..

theorem words_nodeBlind : (words .left 8).NodeBlind := by
  have leaf : forall key literal,
      (Expr.node key (.leaf (.exact literal)) : Expr countedText).NodeBlind :=
    fun _ _ => Expr.nodeBlind_node trivial (List.forall_mem_nil _)
  have word : (Expr.node 0 (.reference "word" .text none) : Expr countedText).NodeBlind :=
    Expr.nodeBlind_node trivial (List.forall_mem_nil _)
  have longer : (Expr.node 2 (.sequence [.node 0 _, .node 1 _] (.pick 0))).NodeBlind :=
    Expr.nodeBlind_node trivial
      (List.forall_mem_cons.mpr ⟨word, List.forall_mem_singleton.mpr (leaf 1 "c")⟩)
  have counted : (Expr.node 6 (.update (.node 5 _) fun (count : Nat) _ => count + 1) :
      Expr countedText).NodeBlind :=
    Expr.nodeBlind_node (fun _ _ _ _ _ => rfl) (List.forall_mem_singleton.mpr (leaf 5 "b"))
  have joined : (Expr.node 9 (.choice [.node 2 _, .node 3 _, .node 6 _, .node 7 _])).NodeBlind :=
    Expr.nodeBlind_node trivial (List.forall_mem_cons.mpr ⟨longer, List.forall_mem_cons.mpr
      ⟨leaf 3 "a", List.forall_mem_cons.mpr ⟨counted, List.forall_mem_singleton.mpr (leaf 7 "d")⟩⟩⟩)
  intro definition member
  rw [List.mem_singleton.mp member]
  exact Expr.nodeBlind_node trivial (List.forall_mem_singleton.mpr joined)

/-- The nodes of the words whose alternatives are joined from the left. -/
def wordGrammar : Grammar countedText :=
  ⟨[.reference "word" .text (some 8), .leaf (.exact "c"), .sequence [8, 1] (.pick 0),
      .leaf (.exact "a"), .leaf (.exact "b"), .update 4 fun (count : Nat) _ => count + 1,
      .leaf (.exact "d"), .choice [2, 3, 5, 6], .leftRecursion 7], [⟨"word", .text, 8⟩]⟩

/-- The nodes of the words whose alternatives are given all at once. -/
def flatWordGrammar : Grammar countedText :=
  ⟨[.reference "word" .text (some 9), .leaf (.exact "c"), .sequence [9, 1] (.pick 0),
      .leaf (.exact "a"), .choice [2, 3], .leaf (.exact "b"),
      .update 5 fun (count : Nat) _ => count + 1, .leaf (.exact "d"), .choice [4, 6, 7],
      .leftRecursion 8], [⟨"word", .text, 9⟩]⟩

/-! Each grammar is built in two steps: what the alternatives are lowered to, and what comes
of it when there are two more nodes. -/

/-- A word with a letter behind it. -/
def longerWord : Expr countedText :=
  .node 2 (.sequence [.node 0 (.reference "word" .text none), .node 1 (.leaf (.exact "c"))] (.pick 0))

/-- The letter that is counted, and the other one. -/
def laterLetters : List (Expr countedText) :=
  [.node 6 (.update (.node 5 (.leaf (.exact "b"))) fun (count : Nat) _ => count + 1),
    .node 7 (.leaf (.exact "d"))]

/-- Alternatives that may start with themselves are lowered to two nodes behind those of the
alternatives. -/
theorem lowered_alternatives {first : Expr countedText} {rest : List (Expr countedText)}
    {middle after : LoweringState countedText} {operand : NodeId} {operands : List NodeId}
    (isFirst : (Lowering.expr first).Yields (Lowering.start PatternCache.empty) operand middle)
    (areRest : (Lowering.exprs rest).Yields middle operands after) :
    let joined := after.nodes ++ [.choice (operand :: operands)]
    (Lowering.expr (.node 10 (.leftRecursion (.node 9 (.choice (first :: rest)))))).Yields
      (Lowering.start PatternCache.empty) joined.length
      ⟨joined ++ [.leftRecursion after.nodes.length],
        (10, joined.length) :: (9, after.nodes.length) :: after.placed, after.cache⟩ := by
  have isChoice := Lowering.yields_choice.mpr ⟨operand, middle, operands, isFirst, areRest, rfl⟩
  have isPlaced := (@Lowering.yields_new _ 9 _ _ _ _ rfl).mpr ⟨_, _, isChoice, rfl⟩
  have isRecursion := Lowering.yields_leftRecursion.mpr ⟨_, isPlaced, rfl⟩
  exact (Lowering.yields_new rfl).mpr ⟨_, _, isRecursion, rfl⟩

/-- What the alternatives that are joined from the left are lowered to. -/
def joinedLowered : LoweringState countedText where
  nodes := [.reference "word" .text none, .leaf (.exact "c"), .sequence [0, 1] (.pick 0),
    .leaf (.exact "a"), .leaf (.exact "b"), .update 4 fun (count : Nat) _ => count + 1,
    .leaf (.exact "d")]
  placed := [(7, 6), (6, 5), (5, 4), (3, 3), (2, 2), (1, 1), (0, 0)]
  cache := PatternCache.empty

theorem words_accepted : exists known,
    (words .left 8).build PatternCache.empty = (.ok ⟨wordGrammar, known⟩, PatternCache.empty) := by
  have isFirst : (Lowering.expr longerWord).Yields (Lowering.start PatternCache.empty) 2
      ⟨joinedLowered.nodes.take 3, joinedLowered.placed.drop 4, PatternCache.empty⟩ := rfl
  have areRest : (Lowering.exprs (.node 3 (.leaf (.exact "a")) :: laterLetters)).Yields
      ⟨joinedLowered.nodes.take 3, joinedLowered.placed.drop 4, PatternCache.empty⟩ [3, 5, 6]
      joinedLowered := rfl
  have isExpr : ((joinedLetters .left 8).leftRecursive 10).1.expr = .node 10 (.leftRecursion
      (.node 9 (.choice (longerWord :: .node 3 (.leaf (.exact "a")) :: laterLetters)))) := rfl
  have isLowered := lowered_alternatives isFirst areRest
  rw [<- isExpr] at isLowered
  have areTargets : Grammar.targets (.reference "word" .text (some 8) :: joinedLowered.nodes.tail ++
    [.choice [2, 3, 5, 6], .leftRecursion 7]) = .ok [8, 1, 2, 3, 4, 5, 6, 7, 8] := rfl
  exact GrammarBuilder.exists_known_of_lowered isLowered "word" rfl areTargets rfl (by decide +kernel)

/-- What the alternatives that are given all at once are lowered to. -/
def flatLowered : LoweringState countedText where
  nodes := [.reference "word" .text none, .leaf (.exact "c"), .sequence [0, 1] (.pick 0),
    .leaf (.exact "a"), .choice [2, 3], .leaf (.exact "b"),
    .update 5 fun (count : Nat) _ => count + 1, .leaf (.exact "d")]
  placed := [(7, 7), (6, 6), (5, 5), (4, 4), (3, 3), (2, 2), (1, 1), (0, 0)]
  cache := PatternCache.empty

theorem flatWords_accepted : exists known, (words .flat 9).build PatternCache.empty =
    (.ok ⟨flatWordGrammar, known⟩, PatternCache.empty) := by
  let either : Expr countedText := .node 4 (.choice [longerWord, .node 3 (.leaf (.exact "a"))])
  have isFirst : (Lowering.expr either).Yields (Lowering.start PatternCache.empty) 4
      ⟨flatLowered.nodes.take 5, flatLowered.placed.drop 3, PatternCache.empty⟩ := rfl
  have areRest : (Lowering.exprs laterLetters).Yields
      ⟨flatLowered.nodes.take 5, flatLowered.placed.drop 3, PatternCache.empty⟩ [6, 7]
      flatLowered := rfl
  have isExpr : ((joinedLetters .flat 9).leftRecursive 10).1.expr = .node 10 (.leftRecursion
      (.node 9 (.choice (either :: laterLetters)))) := rfl
  have isLowered := lowered_alternatives isFirst areRest
  rw [<- isExpr] at isLowered
  have areTargets : Grammar.targets (.reference "word" .text (some 9) :: flatLowered.nodes.tail ++
    [.choice [4, 6, 7], .leftRecursion 8]) = .ok [9, 1, 2, 3, 4, 5, 6, 7, 8, 9] := rfl
  exact GrammarBuilder.exists_known_of_lowered isLowered "word" rfl areTargets rfl (by decide +kernel)

/-- What the words of one grouping come to follows from what those of another
do. -/
theorem words_alike : exists enough, forall more, enough ≤ more ->
    (⟨flatWordGrammar, 9, .unlimited⟩ : EntryPoint countedText .text).parseWithin more "bccx"
      (0 : Nat) = .completed ⟨.ok "b", 3, (1 : Nat)⟩ := by
  rcases words_accepted with ⟨known, accepted⟩
  rcases flatWords_accepted with ⟨known', accepted'⟩
  have rules : List.Forall₂ (Definition.Exchanged (joinedLetters .left 8).expr
      (joinedLetters .flat 9).expr) (words .left 8).definitions (words .flat 9).definitions :=
    .cons ⟨rfl, rfl, .kept (.leftRecursion .swapped)⟩ .nil
  rcases join_unobservable ⟨PatternCache.empty, _, _, rfl⟩ ⟨PatternCache.empty, _, _, rfl⟩ .left
    .flat rules PatternCache.empty_sound PatternCache.empty_sound words_coherent.1
    words_coherent.2 words_nodeBlind accepted accepted' (List.mem_singleton.mpr rfl) with
    ⟨entry, entry', isEntry, isEntry', alike⟩
  have sameEntry : ⟨wordGrammar, 8, .unlimited⟩ = entry := Except.ok.inj isEntry
  have sameEntry' : ⟨flatWordGrammar, 9, .unlimited⟩ = entry' := Except.ok.inj isEntry'
  subst sameEntry sameEntry'
  have parses : (⟨wordGrammar, 8, .unlimited⟩ : EntryPoint countedText .text).parseWithin 12 "bccx"
      (0 : Nat) = .completed ⟨.ok "b", 3, (1 : Nat)⟩ := rfl
  rcases alike.parseWithin (EntryPoint.completed_ne_exhausted parses) with ⟨enough, same⟩
  refine ⟨enough, ?_⟩
  intro more isMore
  exact (parses ▸ same more isMore).eq_of_ok

end Grouping
end SeedGrammar
